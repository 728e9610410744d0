import EcmaCore.Proofs.Object.Define

/-!
# Content that a check overlooks

What a redefinition leaves behind is decided by the fields that it honours: an honoured
field of the kind of property that it does not carry is undefined, empty or false. The
check of a redefinition goes by the kind that it carries instead, and compares nothing
with a property of the other kind. So a redefinition that honours the value of a data
property but carries an accessor property is not compared with a read-only property,
which it then overwrites with undefined; the same goes for accessor slots.

`PropertyUpdate.overlooks` is this situation. It is exactly what keeps the check from being
one of what a redefinition leaves behind.

## Main results

* `PropertyUpdate.contentAllowedOn_of_overlooks`, `PropertyUpdate.contentAllowedOn_of_sees`:
  what is checked in this situation and what outside of it.
* `PropertyUpdate.retained_iff`: an admitted redefinition retains a non-configurable
  property exactly if it repeats its content.
* `PropertyUpdate.retains_iff`: redefinitions retain non-configurable properties unless they
  overlook.
* `PropertyUpdate.treatedAlike_iff`: redefinitions that leave the same behind are treated
  alike exactly if both or neither overlook.
-/

namespace EcmaCore

/-! ## Redefinitions that mean the same -/

/-- Two redefinitions honour the same fields. -/
structure PropertyUpdate.HonoursAlike (u v : PropertyUpdate) : Prop where
  value : u.honoursValue = v.honoursValue
  writable : u.honoursWritable = v.honoursWritable
  getter : u.honoursGetter = v.honoursGetter
  setter : u.honoursSetter = v.honoursSetter
  enumerable : u.honoursEnumerable = v.honoursEnumerable
  configurable : u.honoursConfigurable = v.honoursConfigurable

/-- Two redefinitions leave the same property behind on top of every property and of none. -/
def PropertyUpdate.AppliesAlike (u v : PropertyUpdate) : Prop :=
  ∀ current, (u.applyTo current).same (v.applyTo current) = true

/-- An object has one verdict on two redefinitions of a property, and if it admits them, it has the
same property afterwards. -/
def Object.TreatsAlike (o : Object) (key : PropertyKey) (u v : PropertyUpdate) : Prop :=
  (o.define key u).isSome = (o.define key v).isSome ∧
    ∀ o₁ o₂, o.define key u = some o₁ → o.define key v = some o₂ →
      ∃ p q, o₁.own key = some p ∧ o₂.own key = some q ∧ p.same q = true

namespace PropertyUpdate

variable {u v : PropertyUpdate} {p : Property}

/-- Whether a redefinition puts content into a non-configurable property that is not checked: it
asks for fields of one kind of property and carries the other kind. One that asks for the
configurable flag back is rejected in any case, and a writable flag that is not carried is false,
which is no content to object to. -/
def overlooks (u : PropertyUpdate) : Bool :=
  !(u.honoursConfigurable && u.carried.configurable) &&
    if u.isAccessor then !u.carried.isAccessor else u.honoursValue && u.carried.isAccessor

/-- An admitted redefinition never alters a non-configurable property beyond what that may become:
its accessor slots, the value of a read-only property, its flags and its kind. -/
def Retains (u : PropertyUpdate) : Prop :=
  ∀ (o o' : Object) (key : PropertyKey) (p : Property), o.own key = some p →
    p.configurable = false → o.define key u = some o' → ∃ q, o'.own key = some q ∧ p.Retained q

/-! ## What is checked -/

/-- Whether a redefinition can be one of a property as far as the kind goes. -/
def fits (u : PropertyUpdate) (p : Property) : Bool := u.isGeneric || u.isAccessor == p.isAccessor

/-- A redefinition that overlooks content is never refused for content. -/
theorem contentAllowedOn_of_overlooks (h : u.overlooks = true) (hfits : u.fits p = true) :
    u.contentAllowedOn p = true := by
  rw [overlooks, Bool.and_eq_true] at h
  obtain ⟨-, h⟩ := h
  unfold contentAllowedOn
  cases hacc : u.isAccessor with
  | true =>
      -- it carries a data property, and its getter or setter is asked for
      rw [hacc, if_pos rfl] at h
      rw [fits, isGeneric_of_isAccessor hacc, hacc] at hfits
      cases hcarried : u.carried with
      | accessor => simp [hcarried, Property.isAccessor] at h
      | data =>
          cases p with
          | accessor => rfl
          | data => simp [Property.isAccessor] at hfits
  | false =>
      rw [hacc] at h
      simp only [Bool.false_eq_true, if_false, Bool.and_eq_true] at h
      have hgeneric : u.isGeneric = false := by simp [isGeneric_eq, h.1]
      rw [fits, hgeneric, hacc] at hfits
      cases hcarried : u.carried with
      | data => simp [hcarried, Property.isAccessor] at h
      | accessor =>
          cases p with
          | accessor => simp [Property.isAccessor] at hfits
          | data v writable => cases writable <;> rfl

/-- Otherwise the content that is checked is the content that a redefinition puts in. -/
theorem contentAllowedOn_of_sees (h : u.overlooks = false)
    (hflag : (u.honoursConfigurable && u.carried.configurable) = false)
    (hfits : u.fits p = true) : u.contentAllowedOn p = u.repeatsContent p := by
  rw [overlooks, hflag, Bool.not_false, Bool.true_and] at h
  unfold contentAllowedOn repeatsContent
  cases hacc : u.isAccessor with
  | true =>
      rw [hacc, if_pos rfl] at h
      rw [fits, isGeneric_of_isAccessor hacc, hacc] at hfits
      cases hcarried : u.carried with
      | data => simp [hcarried, Property.isAccessor] at h
      | accessor =>
          cases p with
          | accessor => rfl
          | data => simp [Property.isAccessor] at hfits
  | false =>
      rw [hacc] at h
      simp only [Bool.false_eq_true, if_false] at h
      obtain ⟨hgetter, hsetter⟩ : u.honoursGetter = false ∧ u.honoursSetter = false := by
        simpa [isAccessor] using hacc
      cases hcarried : u.carried with
      | data =>
          cases p with
          | accessor => simp [hgetter, hsetter]
          | data v writable => cases writable <;> rfl
      | accessor =>
          have hvalue : u.honoursValue = false := by
            simpa [hcarried, Property.isAccessor] using h
          cases p with
          | accessor => simp [hgetter, hsetter]
          | data v writable => cases writable <;> simp [hvalue, Property.writable]

/-- Only a redefinition that repeats the content of a non-configurable property retains it. -/
theorem repeatsContent_of_retained (h : p.Retained (u.applyTo (some p))) :
    u.repeatsContent p = true := by
  generalize hq : u.applyTo (some p) = q at h
  cases h with
  | accessor getter setter enumerable =>
      have hslots := applyTo_of_accessor (u := u) (by rw [hq]; rfl)
      rw [hq] at hslots
      obtain ⟨hgetter, hsetter, -⟩ := (Property.accessor.injEq ..).mp hslots
      rw [repeatsContent, Bool.and_eq_true]
      constructor
      · cases hhonours : u.honoursGetter with
        | false => rfl
        | true =>
            rw [hhonours, if_pos rfl] at hgetter
            simp [← hgetter]
      · cases hhonours : u.honoursSetter with
        | false => rfl
        | true =>
            rw [hhonours, if_pos rfl] at hsetter
            simp [← hsetter]
  | @readonly v v' enumerable hsame =>
      have hcontent := applyTo_of_data (u := u) (by rw [hq]; rfl)
      rw [hq] at hcontent
      obtain ⟨hvalue, hwritable, -⟩ := (Property.data.injEq ..).mp hcontent
      rw [repeatsContent, Bool.and_eq_true]
      constructor
      · cases hhonours : u.honoursWritable with
        | false => rfl
        | true =>
            rw [hhonours, if_pos rfl] at hwritable
            simp [← hwritable]
      · cases hhonours : u.honoursValue with
        | false => rfl
        | true =>
            rw [hhonours, if_pos rfl] at hvalue
            simp [← hvalue, hsame]
  | writable => rfl

/-- An admitted redefinition retains a non-configurable property exactly if it repeats its
content. -/
theorem retained_iff (hp : p.configurable = false) (hempty : u.isEmpty = false)
    (hallowed : u.allowedOn p = true) :
    p.Retained (u.applyTo (some p)) ↔ u.repeatsContent p = true :=
  ⟨repeatsContent_of_retained, retained_of_repeatsContent hp hempty hallowed⟩

/-! ## What is overlooked -/

/-- A property that a redefinition which overlooks content alters, though it is not
configurable. -/
def blindSpot (u : PropertyUpdate) : Property :=
  let enumerable := u.honoursEnumerable && u.carried.enumerable
  if u.isAccessor then .accessor (some ⟨0⟩) (some ⟨0⟩) enumerable false
  else .data .null false enumerable false

theorem configurable_blindSpot (u : PropertyUpdate) : u.blindSpot.configurable = false := by
  unfold blindSpot
  dsimp only
  split <;> rfl

theorem fits_blindSpot (u : PropertyUpdate) : u.fits u.blindSpot = true := by
  unfold fits blindSpot
  dsimp only
  cases u.isAccessor <;> simp [Property.isAccessor]

theorem enumerable_blindSpot (u : PropertyUpdate) :
    (u.honoursEnumerable && u.carried.enumerable != u.blindSpot.enumerable) = false := by
  have henumerable : u.blindSpot.enumerable = (u.honoursEnumerable && u.carried.enumerable) := by
    unfold blindSpot
    dsimp only
    split <;> rfl
  rw [henumerable]
  cases u.honoursEnumerable <;> simp

theorem isEmpty_of_overlooks (h : u.overlooks = true) : u.isEmpty = false := by
  rw [overlooks, Bool.and_eq_true] at h
  obtain ⟨-, h⟩ := h
  cases hempty : u.isEmpty with
  | false => rfl
  | true =>
      simp only [isEmpty, Bool.and_eq_true, Bool.not_eq_true'] at hempty
      simp [isAccessor, hempty] at h

/-- The blind spot is admitted. -/
theorem allowedOn_blindSpot (h : u.overlooks = true) : u.allowedOn u.blindSpot = true := by
  have hflag : (u.honoursConfigurable && u.carried.configurable) = false := by
    rw [overlooks, Bool.and_eq_true, Bool.not_eq_true'] at h
    exact h.1
  rw [u.allowedOn_of_fixed u.configurable_blindSpot (isEmpty_of_overlooks h), hflag,
    u.enumerable_blindSpot, contentAllowedOn_of_overlooks h u.fits_blindSpot,
    show (u.isGeneric || u.isAccessor == u.blindSpot.isAccessor) = true from u.fits_blindSpot]
  rfl

/-- What is put into the blind spot is not what is there. -/
theorem repeatsContent_blindSpot (h : u.overlooks = true) :
    u.repeatsContent u.blindSpot = false := by
  rw [overlooks, Bool.and_eq_true] at h
  obtain ⟨-, h⟩ := h
  unfold blindSpot
  dsimp only
  cases hacc : u.isAccessor with
  | true =>
      rw [hacc, if_pos rfl] at h
      rw [if_pos rfl, repeatsContent]
      cases hcarried : u.carried with
      | accessor => simp [hcarried, Property.isAccessor] at h
      | data =>
          rw [isAccessor, Bool.or_eq_true] at hacc
          rcases hacc with hhonours | hhonours <;>
            simp [hhonours, Property.getter, Property.setter]
  | false =>
      rw [hacc] at h
      simp only [Bool.false_eq_true, if_false, Bool.and_eq_true] at h
      rw [if_neg Bool.false_ne_true, repeatsContent]
      cases hcarried : u.carried with
      | data => simp [hcarried, Property.isAccessor] at h
      | accessor => simp [h.1, Property.value, Value.sameValue, Value.sameNonNumber]

/-- Exactly the redefinitions that overlook content alter what they should retain. -/
theorem retains_iff (u : PropertyUpdate) : u.Retains ↔ u.overlooks = false := by
  constructor
  · intro hretains
    cases h : u.overlooks with
    | false => rfl
    | true =>
        let o : Object := (Object.new none .plain).put "x" u.blindSpot
        have hown : o.own "x" = some u.blindSpot := by
          rw [Object.own_put, if_pos rfl]
        have hadmits : o.admits "x" u = true := by
          rw [Object.admits, hown]
          exact allowedOn_blindSpot h
        obtain ⟨q, hq, hretained⟩ := hretains o _ "x" u.blindSpot hown u.configurable_blindSpot
          ((o.define_eq "x" u).trans (if_pos hadmits))
        rw [Object.own_put, if_pos rfl, hown] at hq
        cases hq
        have hrepeats := repeatsContent_of_retained hretained
        rw [repeatsContent_blindSpot h] at hrepeats
        cases hrepeats
  · intro h o o' key p hown hp hdefine
    rw [Object.define_eq, Object.admits, hown] at hdefine
    split at hdefine
    · next hallowed =>
      cases hdefine
      refine ⟨_, (o.own_put key key _).trans (if_pos rfl), ?_⟩
      cases hempty : u.isEmpty with
      | true =>
          rw [applyTo_of_isEmpty hempty]
          exact .refl hp
      | false =>
          have hcheck : u.allowedOn p = true := hallowed
          rw [u.allowedOn_of_fixed hp hempty] at hcheck
          simp only [Bool.and_eq_true, Bool.not_eq_true'] at hcheck
          obtain ⟨⟨⟨hflag, -⟩, hfits⟩, hcontent⟩ := hcheck
          rw [contentAllowedOn_of_sees h hflag hfits] at hcontent
          exact (retained_iff hp hempty hallowed).2 hcontent
    · cases hdefine

/-! ## Redefinitions that leave the same behind -/

/-- What is asked about a field counts only where the field is honoured. -/
theorem honours_and_congr {honours a b : Bool} (h : honours = true → a = b) :
    (honours && a) = (honours && b) := by
  cases honours with
  | false => rfl
  | true => rw [h rfl]

theorem AppliesAlike.symm (h : u.AppliesAlike v) : v.AppliesAlike u :=
  fun current => Property.same_symm (h current)

namespace HonoursAlike

theorem symm (h : u.HonoursAlike v) : v.HonoursAlike u :=
  ⟨h.value.symm, h.writable.symm, h.getter.symm, h.setter.symm, h.enumerable.symm,
    h.configurable.symm⟩

theorem isAccessor_eq (h : u.HonoursAlike v) : u.isAccessor = v.isAccessor := by
  rw [isAccessor, isAccessor, h.getter, h.setter]

theorem isGeneric_eq (h : u.HonoursAlike v) : u.isGeneric = v.isGeneric := by
  rw [isGeneric, isGeneric, h.getter, h.setter, h.value, h.writable]

theorem isEmpty_eq (h : u.HonoursAlike v) : u.isEmpty = v.isEmpty := by
  rw [isEmpty, isEmpty, h.getter, h.setter, h.value, h.writable, h.enumerable, h.configurable]

theorem fits_eq (h : u.HonoursAlike v) (p : Property) : u.fits p = v.fits p := by
  rw [fits, fits, h.isGeneric_eq, h.isAccessor_eq]

/-- They carry the same of a flag that they honour. -/
theorem flags_eq (h : u.HonoursAlike v) (happlies : u.AppliesAlike v) :
    (u.honoursEnumerable = true → u.carried.enumerable = v.carried.enumerable) ∧
      (u.honoursConfigurable = true → u.carried.configurable = v.carried.configurable) := by
  obtain ⟨-, -, -, -, -, henumerable, hconfigurable⟩ := (Property.same_iff ..).1 (happlies none)
  simp only [enumerable_applyTo, configurable_applyTo, ← h.enumerable, ← h.configurable]
    at henumerable hconfigurable
  constructor
  · intro hhonours
    rwa [if_pos hhonours, if_pos hhonours] at henumerable
  · intro hhonours
    rwa [if_pos hhonours, if_pos hhonours] at hconfigurable

/-- They carry the same in an accessor slot that they honour. -/
theorem slots_eq (h : u.HonoursAlike v) (happlies : u.AppliesAlike v) (hacc : u.isAccessor = true) :
    (u.honoursGetter = true → u.carried.getter = v.carried.getter) ∧
      (u.honoursSetter = true → u.carried.setter = v.carried.setter) := by
  have haccessor (t : PropertyUpdate) (ht : t.isAccessor = true) :
      (t.applyTo none).isAccessor = true := by
    rw [isAccessor_applyTo, isGeneric_of_isAccessor ht, if_neg Bool.false_ne_true, ht]
  have hsame := happlies none
  rw [applyTo_of_accessor (haccessor u hacc),
    applyTo_of_accessor (haccessor v (h.isAccessor_eq.symm.trans hacc)), ← h.getter, ← h.setter]
    at hsame
  obtain ⟨-, -, -, hgetter, hsetter, -⟩ := (Property.same_iff ..).1 hsame
  simp only [Property.getter, Property.setter] at hgetter hsetter
  constructor
  · intro hhonours
    rwa [if_pos hhonours, if_pos hhonours] at hgetter
  · intro hhonours
    rwa [if_pos hhonours, if_pos hhonours] at hsetter

/-- They carry the same in a field of a data property that they honour. -/
theorem content_eq (h : u.HonoursAlike v) (happlies : u.AppliesAlike v)
    (hacc : u.isAccessor = false) :
    (u.honoursValue = true → u.carried.value.sameValue v.carried.value = true) ∧
      (u.honoursWritable = true → u.carried.writable = v.carried.writable) := by
  have hdata (t : PropertyUpdate) (ht : t.isAccessor = false) :
      (t.applyTo none).isAccessor = false := by
    rw [isAccessor_applyTo, ht]
    split <;> rfl
  have hsame := happlies none
  rw [applyTo_of_data (hdata u hacc), applyTo_of_data (hdata v (h.isAccessor_eq.symm.trans hacc)),
    ← h.value, ← h.writable] at hsame
  obtain ⟨-, hvalue, hwritable, -⟩ := (Property.same_iff ..).1 hsame
  simp only [Property.value, Property.writable] at hvalue hwritable
  constructor
  · intro hhonours
    rwa [if_pos hhonours, if_pos hhonours] at hvalue
  · intro hhonours
    rwa [if_pos hhonours, if_pos hhonours] at hwritable

/-- They repeat the content of the same properties. -/
theorem repeatsContent_eq (h : u.HonoursAlike v) (happlies : u.AppliesAlike v)
    (hfits : u.fits p = true) : u.repeatsContent p = v.repeatsContent p := by
  cases hacc : u.isAccessor with
  | true =>
      obtain ⟨hgetter, hsetter⟩ := h.slots_eq happlies hacc
      rw [fits, isGeneric_of_isAccessor hacc, hacc] at hfits
      cases p with
      | data => simp [Property.isAccessor] at hfits
      | accessor getter setter =>
          rw [repeatsContent, repeatsContent, ← h.getter, ← h.setter]
          congr 2
          · exact honours_and_congr fun hhonours => by rw [hgetter hhonours]
          · exact honours_and_congr fun hhonours => by rw [hsetter hhonours]
  | false =>
      obtain ⟨hvalue, hwritable⟩ := h.content_eq happlies hacc
      cases p with
      | accessor getter setter =>
          -- neither asks for an accessor slot
          obtain ⟨hgetter, hsetter⟩ : u.honoursGetter = false ∧ u.honoursSetter = false := by
            simpa [isAccessor] using hacc
          simp [repeatsContent, ← h.getter, ← h.setter, hgetter, hsetter]
      | data current writable =>
          cases writable with
          | true => rfl
          | false =>
              rw [repeatsContent, repeatsContent, ← h.value, ← h.writable]
              congr 2
              · exact honours_and_congr hwritable
              · refine honours_and_congr fun hhonours => ?_
                rw [Value.sameValue_congr (hvalue hhonours)]

/-- The flags weigh alike in the checks of both. -/
theorem checkedFlags_eq (h : u.HonoursAlike v) (happlies : u.AppliesAlike v) (p : Property) :
    (u.honoursConfigurable && u.carried.configurable) =
        (v.honoursConfigurable && v.carried.configurable) ∧
      (u.honoursEnumerable && u.carried.enumerable != p.enumerable) =
        (v.honoursEnumerable && v.carried.enumerable != p.enumerable) := by
  obtain ⟨henumerable, hconfigurable⟩ := h.flags_eq happlies
  rw [← h.configurable, ← h.enumerable]
  constructor
  · exact honours_and_congr hconfigurable
  · exact honours_and_congr fun hhonours => by rw [henumerable hhonours]

/-- If both or neither overlook content, one property admits both or neither. -/
theorem allowedOn_eq (h : u.HonoursAlike v) (happlies : u.AppliesAlike v)
    (hoverlooks : u.overlooks = v.overlooks) (p : Property) : u.allowedOn p = v.allowedOn p := by
  cases hp : p.configurable with
  | true => simp [allowedOn, hp]
  | false =>
      cases hempty : u.isEmpty with
      | true => simp [allowedOn, ← h.isEmpty_eq, hempty]
      | false =>
          obtain ⟨hflag, henumerable⟩ := h.checkedFlags_eq happlies p
          rw [u.allowedOn_of_fixed hp hempty, v.allowedOn_of_fixed hp (h.isEmpty_eq ▸ hempty),
            ← hflag, ← henumerable, show (v.isGeneric || v.isAccessor == p.isAccessor) = u.fits p
              from (h.fits_eq p).symm, show (u.isGeneric || u.isAccessor == p.isAccessor) = u.fits p
              from rfl]
          cases hrefused : u.honoursConfigurable && u.carried.configurable with
          | true => rfl
          | false =>
              cases hfits : u.fits p with
              | false => simp
              | true =>
                  congr 1
                  have hfits' : v.fits p = true := (h.fits_eq p).symm.trans hfits
                  cases hsees : u.overlooks with
                  | true =>
                      rw [contentAllowedOn_of_overlooks hsees hfits,
                        contentAllowedOn_of_overlooks (hoverlooks.symm.trans hsees) hfits']
                  | false =>
                      rw [contentAllowedOn_of_sees hsees hrefused hfits,
                        contentAllowedOn_of_sees (hoverlooks.symm.trans hsees)
                          (hflag.symm.trans hrefused) hfits', h.repeatsContent_eq happlies hfits]

/-- If only one overlooks content, its blind spot is admitted to it and not to the other. -/
theorem allowedOn_blindSpot_eq_false (h : u.HonoursAlike v) (happlies : u.AppliesAlike v)
    (hu : u.overlooks = true) (hv : v.overlooks = false) : v.allowedOn u.blindSpot = false := by
  have hflag : (v.honoursConfigurable && v.carried.configurable) = false := by
    rw [← (h.checkedFlags_eq happlies u.blindSpot).1]
    rw [overlooks, Bool.and_eq_true, Bool.not_eq_true'] at hu
    exact hu.1
  have hfits : v.fits u.blindSpot = true := (h.fits_eq _).symm.trans u.fits_blindSpot
  rw [v.allowedOn_of_fixed u.configurable_blindSpot (h.isEmpty_eq ▸ isEmpty_of_overlooks hu),
    contentAllowedOn_of_sees hv hflag hfits, ← h.repeatsContent_eq happlies u.fits_blindSpot,
    repeatsContent_blindSpot hu, Bool.and_false]

/-- If only one overlooks content, some object has different verdicts on them. -/
theorem exists_isSome_ne (h : u.HonoursAlike v) (happlies : u.AppliesAlike v)
    (hu : u.overlooks = true) (hv : v.overlooks = false) :
    ∃ o : Object, (o.define "x" u).isSome ≠ (o.define "x" v).isSome := by
  let o : Object := (Object.new none .plain).put "x" u.blindSpot
  have hown : o.own "x" = some u.blindSpot := by
    rw [Object.own_put, if_pos rfl]
  refine ⟨o, ?_⟩
  rw [Object.isSome_define, Object.isSome_define, Object.admits, Object.admits, hown]
  show u.allowedOn u.blindSpot ≠ v.allowedOn u.blindSpot
  rw [allowedOn_blindSpot hu, h.allowedOn_blindSpot_eq_false happlies hu hv]
  exact Bool.noConfusion

/-- If both or neither overlook content, every object treats both alike. -/
theorem treatsAlike (h : u.HonoursAlike v) (happlies : u.AppliesAlike v)
    (hoverlooks : u.overlooks = v.overlooks) (o : Object) (key : PropertyKey) :
    o.TreatsAlike key u v := by
  have hadmits : o.admits key u = o.admits key v := by
    rw [Object.admits, Object.admits]
    cases o.own key with
    | none => rfl
    | some p => exact h.allowedOn_eq happlies hoverlooks p
  refine ⟨?_, fun o₁ o₂ h₁ h₂ => ?_⟩
  · rw [Object.isSome_define, Object.isSome_define, hadmits]
  · rw [Object.define_eq, ← hadmits] at h₂
    rw [Object.define_eq] at h₁
    split at h₁
    · next hadmitted =>
      rw [if_pos hadmitted] at h₂
      cases h₁
      cases h₂
      exact ⟨_, _, (o.own_put ..).trans (if_pos rfl), (o.own_put ..).trans (if_pos rfl),
        happlies (o.own key)⟩
    · cases h₁

end HonoursAlike

/-! ## The check and what is left behind -/

/-- **Two redefinitions that honour the same fields and leave the same behind are treated alike by
every object exactly if both or neither overlook content**, and a redefinition retains every
non-configurable property exactly if it does not overlook content. -/
theorem treatedAlike_iff (h : u.HonoursAlike v) (happlies : u.AppliesAlike v) :
    ((∀ o key, Object.TreatsAlike o key u v) ↔ u.overlooks = v.overlooks) ∧
      (u.Retains ↔ u.overlooks = false) := by
  refine ⟨⟨fun halike => ?_, h.treatsAlike happlies⟩, u.retains_iff⟩
  cases hu : u.overlooks with
  | true =>
      cases hv : v.overlooks with
      | true => rfl
      | false =>
          obtain ⟨o, hne⟩ := h.exists_isSome_ne happlies hu hv
          exact absurd (halike o "x").1 hne
  | false =>
      cases hv : v.overlooks with
      | false => rfl
      | true =>
          obtain ⟨o, hne⟩ := h.symm.exists_isSome_ne happlies.symm hv hu
          exact absurd (halike o "x").1.symm hne

/-- Taking the writable flag away is seen in both kinds of carried property. -/
theorem treatedAlike_unwritable :
    let u : PropertyUpdate :=
      ⟨false, true, false, false, false, false, .accessor none none false false⟩
    let v : PropertyUpdate :=
      ⟨false, true, false, false, false, false, .data .undefined false false false⟩
    u.HonoursAlike v ∧ u.AppliesAlike v ∧ (∀ o key, Object.TreatsAlike o key u v) ∧ u.Retains := by
  intro u v
  have h : u.HonoursAlike v := ⟨rfl, rfl, rfl, rfl, rfl, rfl⟩
  have happlies : u.AppliesAlike v := fun current => Property.same_refl (v.applyTo current)
  obtain ⟨halike, hretains⟩ := treatedAlike_iff h happlies
  exact ⟨h, happlies, halike.2 rfl, hretains.2 rfl⟩

/-- A redefinition by the value undefined is rejected on a read-only property if it carries a data
property, and overwrites the property if it carries an accessor property. -/
theorem not_treatedAlike_undefined :
    let u : PropertyUpdate :=
      ⟨true, false, false, false, false, false, .accessor none none false false⟩
    let v : PropertyUpdate :=
      ⟨true, false, false, false, false, false, .data .undefined false false false⟩
    let o : Object := (Object.new none .plain).put "x" (.data .null false false false)
    u.HonoursAlike v ∧ u.AppliesAlike v ∧ ¬ o.TreatsAlike "x" u v ∧ ¬ u.Retains ∧
      o.define "x" v = none ∧
      o.define "x" u = some (o.put "x" (.data .undefined false false false)) := by
  intro u v o
  have hv : o.define "x" v = none := by decide +kernel
  have hu : o.define "x" u = some (o.put "x" (.data .undefined false false false)) := by
    decide +kernel
  refine ⟨⟨rfl, rfl, rfl, rfl, rfl, rfl⟩, fun current => Property.same_refl (v.applyTo current),
    fun halike => ?_, fun hretains => ?_, hv, hu⟩
  · rw [Object.TreatsAlike, hu, hv] at halike
    exact Bool.noConfusion halike.1
  · have hoverlooks := u.retains_iff.1 hretains
    exact Bool.noConfusion hoverlooks

end PropertyUpdate

end EcmaCore
