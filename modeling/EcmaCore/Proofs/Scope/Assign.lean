import EcmaCore.Proofs.Object.Assign
import EcmaCore.Proofs.Scope.Probe

/-!
# Assigning to names

An assignment to a reference goes to one place: a slot of the environment that the
reference names, a property of its backing object, or, if no environment has the name, a
property of the global object. Which of them it is, `Record.backingFor?` and
`World.bindingObject?` say.

There are three ways in which the assignment can end, and `PutOutcome` lists them. The
value is written at that one place, where it can be read; or it is ignored, which only
happens to sloppy references; or it is refused with an error. Only the first of them changes
anything.

## Main results

* `Bindings.read_of_assign`, `Engine.setProperty_cases`: the three ways for a slot and for
  a property.
* `Engine.putOutcome`: the three ways for a reference.
* `Engine.putReference_spec`: no assignment is half done or silently lost.
-/

namespace EcmaCore

variable {σ : Type}

/-! ## Places -/

/-- What was assigned to a slot can be read, unless the assignment is sloppy and left the slots as
they are. -/
theorem Bindings.read_of_assign {bs bs' : Bindings} {name : String} {v : Value} {strict : Bool}
    (h : bs.assign name v strict = .ok bs') :
    bs'.read name = .ok v ∨ strict = false ∧ bs' = bs := by
  have hget := get?_assign h name
  rw [if_pos rfl] at hget
  rw [read_eq, hget]
  cases hb : bs.get? name with
  | none => exact .inl rfl
  | some b =>
      by_cases hmutable : b.mutable = true
      · simp [hmutable]
      · -- a constant with a value
        rw [assign, hb] at h
        dsimp only at h
        rw [if_neg hmutable] at h
        split at h
        · cases h
        · split at h
          · cases h
          · next hstrict =>
            cases h
            rw [Bool.or_eq_true, not_or, Bool.not_eq_true] at hstrict
            exact .inr ⟨hstrict.1, rfl⟩

namespace Record

variable {r : Record} {name : String}

/-- The object in which a record keeps a name: its backing object, unless a slot comes first. -/
def backingFor? (r : Record) (name : String) : Option ObjectId :=
  if r.slots.contains name then none else r.backing?.map (·.1)

/-- A name that is not kept in a backing object is a slot, or there is no such object. -/
theorem slot_or_backing_eq_none (h : r.backingFor? name = none) :
    r.slots.contains name = true ∨ r.backing? = none := by
  unfold backingFor? at h
  split at h
  · next hslot => exact .inl hslot
  · exact .inr (Option.map_eq_none_iff.1 h)

theorem backing_of_backingFor {o : ObjectId} (h : r.backingFor? name = some o) :
    r.slots.contains name = false ∧ ∃ isWith, r.backing? = some (o, isWith) := by
  unfold backingFor? at h
  split at h
  · cases h
  · next hslot =>
    obtain ⟨⟨_, isWith⟩, hbacking, rfl⟩ := Option.map_eq_some_iff.1 h
    exact ⟨Bool.eq_false_iff.2 hslot, isWith, hbacking⟩

theorem withSlots_slots (r : Record) : r.withSlots r.slots = r := by
  cases r <;> rfl

theorem withSlots_slots_withSlots (r : Record) (slots : Bindings) :
    r.withSlots (r.withSlots slots).slots = r.withSlots slots := by
  cases r <;> rfl

theorem import?_withSlots (r : Record) (slots : Bindings) (name : String) :
    (r.withSlots slots).import? name = r.import? name := by
  cases r <;> rfl

/-- A record with a backing object imports nothing. -/
theorem import?_of_backingFor {o : ObjectId} (h : r.backingFor? name = some o) (other : String) :
    r.import? other = none := by
  obtain ⟨-, isWith, hbacking⟩ := backing_of_backingFor h
  cases r with
  | module => cases hbacking
  | _ => rfl

/-- A record that keeps a name as a slot can have any slots. -/
theorem slots_withSlots (h : r.backingFor? name = none) (slots : Bindings) :
    (r.withSlots slots).slots = slots := by
  cases r with
  | object => cases h
  | _ => rfl

end Record

/-- The object whose property an assignment to a reference is about, if it is about one. -/
def World.bindingObject? (w : World σ) (r : Reference) : Option ObjectId :=
  match r.base with
  | none => if r.strict then none else some w.realm.global
  | some s => (w.scope s).record.backingFor? r.name

/-- Two worlds differ at most in the slot `name` of the environment `s`. -/
structure World.DiffersAtSlot (w : World σ) (s : ScopeId) (name : String) (w' : World σ) :
    Prop where
  rest : w' = { w with scopes := w'.scopes }
  size : w'.scopes.size = w.scopes.size
  scope : ∀ t, t ≠ s → w'.scope t = w.scope t
  outer : (w'.scope s).outer = (w.scope s).outer
  record : (w'.scope s).record = (w.scope s).record.withSlots (w'.scope s).record.slots
  slots : ∀ other, other ≠ name →
    (w'.scope s).record.slots.get? other = (w.scope s).record.slots.get? other

/-- Two worlds differ at most in one slot or property of a name. -/
def World.DiffersAtName (w : World σ) (name : String) (w' : World σ) : Prop :=
  (∃ s, w.DiffersAtSlot s name w') ∨ ∃ o, w.DiffersAtProperty o name w'

theorem World.DiffersAtName.refl (w : World σ) (name : String) : w.DiffersAtName name w :=
  .inr ⟨w.realm.global, .refl w _ _⟩

theorem World.differsAtSlot_setRecord {w : World σ} {s : ScopeId} {name : String}
    {slots : Bindings}
    (h : ∀ other, other ≠ name → slots.get? other = (w.scope s).record.slots.get? other) :
    w.DiffersAtSlot s name (w.setRecord s ((w.scope s).record.withSlots slots)) where
  rest := rfl
  size := w.size_setRecord s _
  scope t ht := by
    rw [scope_setRecord, if_neg fun heq => ht heq.1.symm]
  outer := w.outer_setRecord s s _
  record := by
    rw [scope_setRecord]
    split
    · exact (Record.withSlots_slots_withSlots _ slots).symm
    · exact (Record.withSlots_slots _).symm
  slots other hother := by
    rw [scope_setRecord]
    split
    · cases hrecord : (w.scope s).record with
      | object => rfl
      | _ =>
          rw [hrecord] at h
          exact h other hother
    · rfl

/-! ## One environment -/

namespace Engine

variable {w : World σ} {s : ScopeId} {name : String} {o : ObjectId}

theorem setBinding_of_slot (E : Engine σ) (h : (w.scope s).record.backingFor? name = none)
    (v : Value) (strict : Bool) :
    E.setBinding s name v strict w = updateSlots s (·.assign name v strict) w := by
  rw [setBinding, Action.bind_ok (Action.get_apply w)]
  rcases Record.slot_or_backing_eq_none h with hslot | hbacking
  · simp only [hslot, if_true]
    cases (w.scope s).record.backing? <;> rfl
  · simp only [hbacking]

theorem setBinding_of_backing (E : Engine σ) (h : (w.scope s).record.backingFor? name = some o)
    (v : Value) (strict : Bool) :
    E.setBinding s name v strict w = E.backingSet o name v strict w := by
  obtain ⟨hslot, isWith, hbacking⟩ := Record.backing_of_backingFor h
  rw [setBinding, Action.bind_ok (Action.get_apply w)]
  simp only [hbacking, hslot, Bool.false_eq_true, if_false]

theorem backingSet_eq (E : Engine σ) (backing : ObjectId) (name : String) (v : Value)
    (strict : Bool) (w : World σ) :
    E.backingSet backing name v strict w =
      if !w.hasProperty backing name && strict then .error (.thrown (.notDefined name)) w
      else
        match E.setProperty backing name v strict w with
        | .ok _ w' => .ok () w'
        | .error e w' => .error e w' := by
  rw [backingSet, Action.bind_ok (Action.get_apply w)]
  by_cases hmissing : (!w.hasProperty backing name && strict) = true
  · rw [if_pos hmissing, if_pos hmissing]
    rfl
  · rw [if_neg hmissing, if_neg hmissing]
    dsimp only
    cases hset : E.setProperty backing name v strict w with
    | ok done w' =>
        show (E.setProperty backing name v strict >>= fun _ => pure ()) w = _
        rw [Action.bind_ok hset, Action.pure_apply]
    | error e w' =>
        show (E.setProperty backing name v strict >>= fun _ => pure ()) w = _
        rw [Action.bind_error hset]

variable [Embedding σ]

theorem getBinding_of_backing (E : Engine σ) (himport : (w.scope s).record.import? name = none)
    (h : (w.scope s).record.backingFor? name = some o) (strict : Bool) :
    E.getBinding s name strict w = E.backingGet o name strict w := by
  obtain ⟨hslot, isWith, hbacking⟩ := Record.backing_of_backingFor h
  rw [getBinding, Action.bind_ok (Action.get_apply w)]
  simp only [himport, hbacking, hslot, Bool.false_eq_true, if_false]

/-- A name that is neither imported nor kept in a backing object is read from the slots. -/
theorem getBinding_of_slots (E : Engine σ) (himport : (w.scope s).record.import? name = none)
    (h : (w.scope s).record.backingFor? name = none) (strict : Bool) :
    E.getBinding s name strict w = Action.ofExcept ((w.scope s).record.slots.read name) w := by
  rcases Record.slot_or_backing_eq_none h with hslot | hbacking
  · exact getBinding_of_slot himport hslot
  · rw [getBinding, Action.bind_ok (Action.get_apply w)]
    simp only [himport, hbacking]

/-! ## Assigning to a reference -/

theorem getReference_of_base (E : Engine σ) {r : Reference} (h : r.base = some s) :
    E.getReference r = E.getBinding s r.name r.strict := by
  simp only [getReference, h]

omit [Embedding σ] in
theorem putReference_of_base (E : Engine σ) {r : Reference} (h : r.base = some s) (v : Value) :
    E.putReference r v = E.setBinding s r.name v r.strict := by
  simp only [putReference, h]

/-- A reference reads an own data property of the backing object that keeps its name. -/
theorem getReference_of_own (E : Engine σ) {r : Reference} {v : Value}
    {writable enumerable configurable : Bool} (hbase : r.base = some s)
    (himport : (w.scope s).record.import? r.name = none)
    (h : (w.scope s).record.backingFor? r.name = some o)
    (hown : w.own o r.name = some (.data v writable enumerable configurable)) :
    E.getReference r w = .ok v w := by
  have hlookup := World.lookup_of_own hown
  have hhas : w.hasProperty o r.name = true := by
    rw [World.hasProperty, hlookup]
    rfl
  rw [getReference_of_base E hbase, getBinding_of_backing E himport h, backingGet,
    Action.bind_ok (Action.get_apply w), if_pos hhas, World.getProperty_of_data E hlookup]

/-- A reference reads the slot of its name among the slots that its environment was given. -/
theorem getReference_setRecord (E : Engine σ) {r : Reference} {v : Value} {slots : Bindings}
    (hbase : r.base = some s) (hlt : s.index < w.scopes.size)
    (himport : (w.scope s).record.import? r.name = none)
    (h : (w.scope s).record.backingFor? r.name = none) (hread : slots.read r.name = .ok v) :
    E.getReference r (w.setRecord s ((w.scope s).record.withSlots slots)) =
      .ok v (w.setRecord s ((w.scope s).record.withSlots slots)) := by
  have hcontains : slots.contains r.name = true := by
    rw [Bindings.read_eq] at hread
    rw [Table.contains_eq_isSome]
    cases hslot : slots.get? r.name with
    | none =>
        rw [hslot] at hread
        cases hread
    | some b => rfl
  have hrecord := World.record_setRecord hlt ((w.scope s).record.withSlots slots)
  rw [getReference_of_base E hbase, getBinding_of_slot]
  · rw [hrecord, Record.slots_withSlots h, hread]
    rfl
  · rw [hrecord, Record.import?_withSlots, himport]
  · rw [hrecord, Record.slots_withSlots h, hcontains]

/-- How an assignment of a value to a reference ends: the value is written in one place, where the
reference reads it or, if no environment has the name, the global object has it; or a sloppy
assignment is ignored; or the assignment is refused. -/
inductive PutOutcome (E : Engine σ) (r : Reference) (v : Value) (w : World σ) :
    EStateM.Result Failure (World σ) Unit → Prop
  | written {w' : World σ} (hdiffers : w.DiffersAtName r.name w')
      (hread : E.getReference r w' = .ok v w') : PutOutcome E r v w (.ok () w')
  | declared {w' : World σ} (hdiffers : w.DiffersAtName r.name w') (hbase : r.base = none)
      (hsloppy : r.strict = false)
      (hown : ∃ enumerable configurable,
        w'.own w'.realm.global r.name = some (.data v true enumerable configurable)) :
      PutOutcome E r v w (.ok () w')
  | ignored (hsloppy : r.strict = false) : PutOutcome E r v w (.ok () w)
  | refused (e : Error) : PutOutcome E r v w (.error (.thrown e) w)

/-- An assignment to a name that no environment has. -/
theorem putOutcome_of_unresolved (E : Engine σ) {r : Reference} (hbase : r.base = none)
    (hdata : r.strict = false → w.ReadsQuietly w.realm.global r.name) (v : Value) :
    PutOutcome E r v w (E.putReference r v w) := by
  cases hstrict : r.strict with
  | true =>
      have hput : E.putReference r v w = .error (.thrown (.notDefined r.name)) w := by
        simp only [putReference, hbase, hstrict, if_true]
        rfl
      rw [hput]
      exact .refused _
  | false =>
      have hput : E.putReference r v w =
          (E.setProperty w.realm.global r.name v false >>= fun _ => pure ()) w := by
        simp only [putReference, hbase, hstrict, Bool.false_eq_true, if_false]
        rw [Action.bind_ok (Action.get_apply w)]
      rw [hput]
      rcases E.setProperty_cases (hdata hstrict) v false with hset | ⟨-, hset⟩ | ⟨hmust, -⟩
      · rw [Action.bind_ok hset, Action.pure_apply]
        by_cases hlt : w.realm.global.index < w.objects.size
        · refine .declared (.inr ⟨_, w.differsAtProperty_putOwn _ _ _⟩) hbase hstrict ?_
          exact World.own_written hlt r.name v
        · rw [World.putOwn_of_size_le (Nat.le_of_not_lt hlt)]
          exact .ignored hstrict
      · rw [Action.bind_ok hset, Action.pure_apply]
        exact .ignored hstrict
      · cases hmust

/-- An assignment to a property of a backing object. -/
theorem putOutcome_of_backing (E : Engine σ) {r : Reference} (hbase : r.base = some s)
    (himport : (w.scope s).record.import? r.name = none)
    (h : (w.scope s).record.backingFor? r.name = some o)
    (hdata : w.ReadsQuietly o r.name) (v : Value) :
    PutOutcome E r v w (E.putReference r v w) := by
  rw [putReference_of_base E hbase, E.setBinding_of_backing h, backingSet_eq]
  split
  · exact .refused _
  · next hpresent =>
    rcases E.setProperty_cases hdata v r.strict with hset | ⟨hsloppy, hset⟩ | ⟨-, hset⟩
    · rw [hset]
      by_cases hlt : o.index < w.objects.size
      · refine .written (.inr ⟨o, w.differsAtProperty_putOwn _ _ _⟩) ?_
        obtain ⟨_, _, hown⟩ := World.own_written hlt r.name v
        exact getReference_of_own E hbase himport h hown
      · -- only a sloppy assignment to an object that is not there gets this far
        rw [World.putOwn_of_size_le (Nat.le_of_not_lt hlt)]
        refine .ignored ?_
        rw [World.hasProperty, World.lookup_of_size_le (Nat.le_of_not_lt hlt)] at hpresent
        simpa using hpresent
    · rw [hset]
      exact .ignored hsloppy
    · rw [hset]
      exact .refused _

/-- An assignment to a slot. -/
theorem putOutcome_of_slot (E : Engine σ) {r : Reference} (hbase : r.base = some s)
    (himport : ((w.scope s).record.import? r.name).isSome → (w.scope s).record.slots.Pinned r.name)
    (h : (w.scope s).record.backingFor? r.name = none) (v : Value) :
    PutOutcome E r v w (E.putReference r v w) := by
  rw [putReference_of_base E hbase, E.setBinding_of_slot h, updateSlots_eq]
  cases hassign : (w.scope s).record.slots.assign r.name v r.strict with
  | error e => exact .refused e
  | ok slots =>
      dsimp only
      rcases Bindings.read_of_assign hassign with hread | ⟨hsloppy, rfl⟩
      · by_cases hlt : s.index < w.scopes.size
        · refine .written (.inl ⟨s, World.differsAtSlot_setRecord fun other hother => ?_⟩) ?_
          · rw [Bindings.get?_assign hassign, if_neg hother.symm]
          · have hfree : (w.scope s).record.import? r.name = none := by
              cases hsome : (w.scope s).record.import? r.name with
              | none => rfl
              | some i =>
                  rw [(himport (Option.isSome_of_eq_some hsome)).assign_eq] at hassign
                  cases hassign
            exact getReference_setRecord E hbase hlt hfree h hread
        · -- only a sloppy assignment to an environment that is not there gets this far
          rw [World.setRecord_of_size_le (Nat.le_of_not_lt hlt)]
          refine .ignored ?_
          rw [w.scope_of_size_le (Nat.le_of_not_lt hlt)] at hassign
          cases hstrict : r.strict with
          | false => rfl
          | true =>
              rw [hstrict] at hassign
              cases hassign
      · rw [Record.withSlots_slots, World.setRecord_self rfl]
        exact .ignored hsloppy

/-- An assignment to a reference is written, ignored or refused, if the property that it is about is
no accessor and no name was imported over a slot. -/
theorem putOutcome (E : Engine σ) (r : Reference) (v : Value) (w : World σ)
    (hdata : ∀ o, w.bindingObject? r = some o → w.ReadsQuietly o r.name)
    (himport : ∀ s, r.base = some s → ((w.scope s).record.import? r.name).isSome →
      (w.scope s).record.BoundLast) :
    PutOutcome E r v w (E.putReference r v w) := by
  unfold World.bindingObject? at hdata
  cases hbase : r.base with
  | none =>
      refine E.putOutcome_of_unresolved hbase (fun hsloppy => hdata _ ?_) v
      simp only [hbase, hsloppy, Bool.false_eq_true, if_false]
  | some s =>
      simp only [hbase] at hdata
      have hpinned (hsome : ((w.scope s).record.import? r.name).isSome) :=
        ((himport s hbase hsome).pinsImport hsome).2
      cases hbacking : (w.scope s).record.backingFor? r.name with
      | none => exact E.putOutcome_of_slot hbase hpinned hbacking v
      | some o =>
          have hfree := Record.import?_of_backingFor hbacking r.name
          exact E.putOutcome_of_backing hbase hfree hbacking (hdata o hbacking) v

/-- **No assignment is half done or silently lost.** Let a reference be assigned a value, where the
property that the assignment is about, if it is about one, is no accessor, and where no name was
imported over a slot of the environment that the reference names. If the reference is strict and
the assignment succeeds, then the reference reads the value. If it is sloppy and the assignment
succeeds, then the reference reads the value, or no environment has the name and the global object
has the value as a property of its own, or nothing is different. If the assignment fails, then it
fails with an error of the language and nothing is different. In any case at most one slot of one
environment or one property of one object is different, and it is one of this name. -/
theorem putReference_spec (E : Engine σ) (r : Reference) (v : Value) (w : World σ)
    (hdata : ∀ o, w.bindingObject? r = some o → w.ReadsQuietly o r.name)
    (himport : ∀ s, r.base = some s → ((w.scope s).record.import? r.name).isSome →
      (w.scope s).record.BoundLast) :
    (∀ w', r.strict = true → E.putReference r v w = .ok () w' →
      E.getReference r w' = .ok v w') ∧
    (∀ w', r.strict = false → E.putReference r v w = .ok () w' →
      E.getReference r w' = .ok v w' ∨
      (r.base = none ∧ ∃ enumerable configurable,
        w'.own w'.realm.global r.name = some (.data v true enumerable configurable)) ∨
      w' = w) ∧
    (∀ f w', E.putReference r v w = .error f w' → w' = w ∧ ∃ e, f = .thrown e) ∧
    w.DiffersAtName r.name ((E.putReference r v).after w) := by
  have houtcome := E.putOutcome r v w hdata himport
  unfold Action.after
  generalize E.putReference r v w = result at houtcome
  cases houtcome with
  | written hdiffers hread =>
      refine ⟨?_, ?_, ?_, hdiffers⟩
      · rintro _ - ⟨⟩
        exact hread
      · rintro _ - ⟨⟩
        exact .inl hread
      · rintro _ _ ⟨⟩
  | declared hdiffers hbase hsloppy hown =>
      refine ⟨?_, ?_, ?_, hdiffers⟩
      · intro _ hstrict
        rw [hsloppy] at hstrict
        cases hstrict
      · rintro _ - ⟨⟩
        exact .inr (.inl ⟨hbase, hown⟩)
      · rintro _ _ ⟨⟩
  | ignored hsloppy =>
      refine ⟨?_, ?_, ?_, .refl w r.name⟩
      · intro _ hstrict
        rw [hsloppy] at hstrict
        cases hstrict
      · rintro _ - ⟨⟩
        exact .inr (.inr rfl)
      · rintro _ _ ⟨⟩
  | refused e =>
      refine ⟨nofun, nofun, ?_, .refl w r.name⟩
      rintro _ _ ⟨⟩
      exact ⟨rfl, e, rfl⟩

/-- A strict reference from inside of a function environment to a property of the global object. -/
theorem putReference_spec_global :
    let E : Engine Unit := .exhausted
    let w : World Unit :=
      { World.empty none (.below 0) () with
        objects := #[⟨none, true, Table.empty.insert "x" (.data .null true false false), .plain⟩]
        scopes := #[⟨.global .empty ⟨⟨0⟩, ⟨0⟩, []⟩, none⟩,
          ⟨.function (Table.empty.insert "y" ⟨some .null, true, false, false⟩)
            ⟨none, false, ⟨1⟩, none⟩, some ⟨0⟩⟩] }
    let r : Reference := ⟨some ⟨0⟩, "x", true⟩
    E.reference (some ⟨1⟩) "x" true w = .ok r w ∧
      ∃ w', E.putReference r (.boolean true) w = .ok () w' ∧
        E.getReference r w' = .ok (.boolean true) w' ∧ w.DiffersAtName "x" w' := by
  intro E w r
  have hdata : ∀ o, w.bindingObject? r = some o → w.ReadsQuietly o r.name := by
    rintro o ⟨⟩ p hp
    have hlookup : w.lookup ⟨0⟩ "x" = some (.data .null true false false) := by decide +kernel
    cases hlookup.symm.trans hp
    rfl
  have himport : ∀ s, r.base = some s → ((w.scope s).record.import? r.name).isSome →
      (w.scope s).record.BoundLast := by
    rintro s ⟨⟩
    nofun
  obtain ⟨hstrict, -, -, hdiffers⟩ := E.putReference_spec r (.boolean true) w hdata himport
  have hput : E.putReference r (.boolean true) w =
      .ok () ((E.putReference r (.boolean true)).after w) := rfl
  exact ⟨rfl, _, hput, hstrict _ rfl hput, hdiffers⟩

end Engine

end EcmaCore
