import EcmaCore.Engine.Property
import EcmaCore.Proofs.Action

/-!
# Looking up properties

A lookup finds the property that the nearest object along the prototypes has. It is a
function of the objects, so what an operation holds on to makes no difference to it, and
reading a property is a lookup as long as it finds no accessor.

## Main results

* `World.inherits_iff_lookup`: a lookup finds what a walk along the prototypes finds.
* `World.lookup_congr`, `World.lookup_of_own`: what a lookup depends on.
* `World.getProperty_of_data`, `World.ReadsQuietly.getProperty_eq`: reading without running code.
-/

namespace EcmaCore.World

variable {σ : Type}

/-! ## Walks along the prototypes -/

/-- Every prototype was there before the objects that have it. -/
def PrototypesFirst (w : World σ) : Prop :=
  ∀ o prototype, (w.object o).prototype = some prototype → prototype.index < o.index

/-- From an object along its prototypes, the nearest that has a key has this property for it, or
none has one. -/
inductive Inherits (w : World σ) (key : PropertyKey) : ObjectId → Option Property → Prop
  | own {o : ObjectId} {p : Property} (h : w.own o key = some p) : Inherits w key o (some p)
  | inherited {o prototype : ObjectId} {found : Option Property} (hown : w.own o key = none)
      (hprototype : (w.object o).prototype = some prototype)
      (rest : Inherits w key prototype found) : Inherits w key o found
  | nowhere {o : ObjectId} (hown : w.own o key = none)
      (hprototype : (w.object o).prototype = none) : Inherits w key o none

section Walks

variable {w : World σ} {key : PropertyKey} {o : ObjectId} {found : Option Property}

/-- A list of prototypes that is long enough shows what the walk finds. -/
theorem Inherits.findSome?_prototypesWithin (h : w.Inherits key o found)
    (hfirst : w.PrototypesFirst) {bound : Nat} (hbound : o.index < bound) :
    (w.prototypesWithin bound o).findSome? (w.own · key) = found := by
  induction h generalizing bound with
  | own hown =>
      obtain ⟨bound, rfl⟩ := Nat.exists_eq_add_one_of_ne_zero (Nat.ne_zero_of_lt hbound)
      rw [prototypesWithin, List.findSome?_cons, hown]
  | inherited hown hprototype _ ih =>
      obtain ⟨bound, rfl⟩ := Nat.exists_eq_add_one_of_ne_zero (Nat.ne_zero_of_lt hbound)
      rw [prototypesWithin, List.findSome?_cons, hown, hprototype]
      have hlt := hfirst _ _ hprototype
      exact ih (by omega)
  | nowhere hown hprototype =>
      obtain ⟨bound, rfl⟩ := Nat.exists_eq_add_one_of_ne_zero (Nat.ne_zero_of_lt hbound)
      rw [prototypesWithin, List.findSome?_cons, hown, hprototype]
      rfl

/-- A walk comes to an end, since it goes to older objects only. -/
theorem exists_inherits (hfirst : w.PrototypesFirst) (key : PropertyKey) (o : ObjectId) :
    ∃ found, w.Inherits key o found := by
  obtain ⟨i⟩ := o
  induction i using Nat.strongRecOn with
  | ind i ih =>
      cases hown : w.own ⟨i⟩ key with
      | some p => exact ⟨_, .own hown⟩
      | none =>
          cases hprototype : (w.object ⟨i⟩).prototype with
          | none => exact ⟨_, .nowhere hown hprototype⟩
          | some prototype =>
              obtain ⟨found, hrest⟩ := ih prototype.index (hfirst _ _ hprototype)
              exact ⟨found, .inherited hown hprototype hrest⟩

/-- **A lookup finds the property of the nearest object along the prototypes that has the key.** -/
theorem inherits_iff_lookup (hfirst : w.PrototypesFirst) :
    w.Inherits key o found ↔ w.lookup o key = found := by
  constructor
  · intro h
    exact h.findSome?_prototypesWithin hfirst (Nat.lt_succ_self _)
  · rintro rfl
    obtain ⟨found, hfound⟩ := exists_inherits hfirst key o
    have hlookup : w.lookup o key = found :=
      hfound.findSome?_prototypesWithin hfirst (Nat.lt_succ_self _)
    rw [hlookup]
    exact hfound

/-- A lookup finds an own property first. -/
theorem lookup_of_own {p : Property} (h : w.own o key = some p) : w.lookup o key = some p := by
  rw [lookup, prototypeChain, prototypesWithin, List.findSome?_cons, h]

end Walks

/-! ## What a lookup depends on -/

theorem prototypesWithin_congr {w w' : World σ} (h : w'.objects = w.objects) (bound : Nat)
    (o : ObjectId) : w'.prototypesWithin bound o = w.prototypesWithin bound o := by
  induction bound generalizing o with
  | zero => rfl
  | succ bound ih =>
      rw [prototypesWithin, prototypesWithin, object, object, h]
      simp only [ih]

/-- What a lookup finds depends on the objects only. -/
theorem lookup_congr {w w' : World σ} (h : w'.objects = w.objects) (o : ObjectId)
    (key : PropertyKey) : w'.lookup o key = w.lookup o key := by
  have hown (o : ObjectId) : w'.own o key = w.own o key := by rw [own, own, object, object, h]
  rw [lookup, lookup, prototypeChain, prototypeChain, prototypesWithin_congr h]
  simp only [hown]

/-! ## Reading without running code -/

/-- Reading a property finds no accessor, so that it runs no code. -/
def ReadsQuietly (w : World σ) (o : ObjectId) (key : PropertyKey) : Prop :=
  ∀ p, w.lookup o key = some p → p.isAccessor = false

/-- The value of the data property that is found for a key. -/
def dataValue (w : World σ) (o : ObjectId) (key : PropertyKey) : Value :=
  (w.lookup o key).elim .undefined Property.value

theorem dataValue_of_lookup {w : World σ} {o : ObjectId} {key : PropertyKey} {p : Property}
    (h : w.lookup o key = some p) : w.dataValue o key = p.value := by
  rw [dataValue, h]
  rfl

/-- Reading a property that is no accessor answers from the world. -/
theorem ReadsQuietly.getProperty_eq {w : World σ} {o : ObjectId} {key : PropertyKey}
    (h : w.ReadsQuietly o key) (E : Engine σ) :
    E.getProperty o key w = .ok (w.dataValue o key) w := by
  rw [Engine.getProperty, Engine.getFor, Action.bind_ok (Action.get_apply w), dataValue]
  cases hp : w.lookup o key with
  | none => rfl
  | some p =>
      cases p with
      | data v writable enumerable configurable => rfl
      | accessor getter setter enumerable configurable => cases h _ hp

/-- Reading a data property runs no code. -/
theorem getProperty_of_data {w : World σ} (E : Engine σ) {o : ObjectId} {key : PropertyKey}
    {v : Value} {writable enumerable configurable : Bool}
    (h : w.lookup o key = some (.data v writable enumerable configurable)) :
    E.getProperty o key w = .ok v w := by
  rw [Engine.getProperty, Engine.getFor, Action.bind_ok (Action.get_apply w), h]
  rfl

/-! ## Holding on to entities -/

variable (w : World σ) (entities : List Entity)

theorem lookup_holding (o : ObjectId) (key : PropertyKey) :
    ({ w with held := entities ++ w.held } : World σ).lookup o key = w.lookup o key := by
  apply lookup_congr
  rfl

theorem hasProperty_holding (o : ObjectId) (key : PropertyKey) :
    ({ w with held := entities ++ w.held } : World σ).hasProperty o key = w.hasProperty o key := by
  rw [hasProperty, hasProperty, lookup_holding]

theorem dataValue_holding (o : ObjectId) (key : PropertyKey) :
    ({ w with held := entities ++ w.held } : World σ).dataValue o key = w.dataValue o key := by
  rw [dataValue, dataValue, lookup_holding]

variable {w}

theorem ReadsQuietly.holding {o : ObjectId} {key : PropertyKey} (h : w.ReadsQuietly o key) :
    ({ w with held := entities ++ w.held } : World σ).ReadsQuietly o key := by
  intro p hp
  rw [lookup_holding] at hp
  exact h p hp

/-- What runs no code reads the same whatever is held on to. -/
theorem ReadsQuietly.getProperty_holding {o : ObjectId} {key : PropertyKey}
    (h : w.ReadsQuietly o key) (E : Engine σ) :
    (E.getProperty o key).holding entities w = .ok (w.dataValue o key) w := by
  rw [Action.holding_apply, (h.holding entities).getProperty_eq E, dataValue_holding]

end EcmaCore.World
