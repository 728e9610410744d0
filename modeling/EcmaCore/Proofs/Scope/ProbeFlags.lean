import EcmaCore.Proofs.Scope.Delete

/-!
# The flags that a probe reports

A probe reports a binding with its flags: whether the name can be assigned to, and whether it can
be deleted. An environment has such flags for its slots only. For imports and for properties of a
backing object a probe makes them up, always the same: an import is a constant, and a property can
be assigned to and deleted.

That is what assignments and deletions find where the slot behind an import is a constant with a
value, and where the property is writable, configurable if the backing object has it itself, and
otherwise inherited by an object that is extensible.

## Main results

* `Program.probed`: what a probe reports, by the place where the environment keeps the name.
* `World.tellsTruth_of_slot`, `World.tellsTruth_import_iff`, `World.tellsTruth_property_iff`: when
  the flags are right, place by place.
* `Program.probeBinding_tellsTruth_iff`: when they are right.
-/

namespace EcmaCore

variable {σ : Type}

/-! ## What flags say -/

/-- The flags of a binding are right: deleting the name answers by one of them; by the other one, a
strict assignment succeeds and can be read back, or is a type error that changes nothing. -/
structure World.TellsTruth [Embedding σ] (w : World σ) (E : Engine σ) (s : ScopeId) (name : String)
    (b : Binding) : Prop where
  deletes : ∃ w', Engine.deleteBinding s name w = .ok b.deletable w'
  assigns : b.mutable = true → ∀ v, ∃ w', E.setBinding s name v true w = .ok () w' ∧
    ∀ strict, E.getBinding s name strict w' = .ok v w'
  refuses : b.mutable = false → ∀ v, (E.setBinding s name v true).Throws .type w

/-- A slot is there and can be neither deleted nor, by a strict assignment, changed. -/
def Bindings.HoldsConstant (bs : Bindings) (name : String) : Prop :=
  ∃ b, bs.get? name = some b ∧ b.value.isSome = true ∧ b.mutable = false ∧ b.deletable = false

/-- A property is found and is writable. The object can delete it if it has it itself, and can add
one that shadows it if it has not. -/
def World.FreeProperty (w : World σ) (o : ObjectId) (key : PropertyKey) : Prop :=
  ∃ p, w.lookup o key = some p ∧ p.writable = true ∧
    (w.own o key = some p → p.configurable = true) ∧
    (w.own o key = none → (w.object o).extensible = true)

/-! ## Places that stay -/

/-- A record goes on resolving names in the same object, if it has no slots, and importing the names
that it imports. -/
structure Record.KeepsPlaces (r r' : Record) : Prop where
  object : ∀ backing isWith, r = .object backing isWith → r' = .object backing isWith
  imports : ∀ name, (r.import? name).isSome → (r'.import? name).isSome

namespace Record.KeepsPlaces

theorem refl (r : Record) : r.KeepsPlaces r :=
  ⟨fun _ _ => id, fun _ => id⟩

theorem trans {r r' r'' : Record} (h : r.KeepsPlaces r') (h' : r'.KeepsPlaces r'') :
    r.KeepsPlaces r'' :=
  ⟨fun backing isWith hr => h'.object backing isWith (h.object backing isWith hr),
    fun name himport => h'.imports name (h.imports name himport)⟩

theorem withSlots (r : Record) (slots : Bindings) : r.KeepsPlaces (r.withSlots slots) where
  object := by
    rintro backing isWith rfl
    rfl
  imports name himport := by rwa [import?_withSlots]

/-- Every step keeps the places. -/
theorem of_step {r r' : Record} (h : r.Step r') : r.KeepsPlaces r' := by
  cases h with
  | create | init | assign | delete => exact withSlots r _
  | bindThis hbind =>
      cases r with
      | function => exact ⟨nofun, nofun⟩
      | _ => cases hbind
  | addVarName name =>
      cases r with
      | global => exact ⟨nofun, nofun⟩
      | _ => exact refl _
  | removeVarName name =>
      cases r with
      | global => exact ⟨nofun, nofun⟩
      | _ => exact refl _
  | @addImport name target _ hadd =>
      cases r with
      | module slots imports =>
          refine ⟨fun _ _ hr => (nomatch hr), fun other himport => ?_⟩
          obtain ⟨slots', hok, -⟩ := addImport_module slots imports name target
          rw [hok] at hadd
          cases hadd
          show ((imports.insert name target).get? other).isSome
          rw [Table.get?_insert]
          split
          · rfl
          · exact himport
      | _ =>
          cases hadd
          exact refl _

end Record.KeepsPlaces

/-! ## What a probe reports -/

/-- How a reported binding comes about: it is a slot, or stands for an import or for a property, and
then has the flags that all of these have. -/
inductive World.Probed (w : World σ) (s : ScopeId) (name : String) (b : Binding) : Prop
  | slot (himport : (w.scope s).record.import? name = none)
      (hslot : (w.scope s).record.slots.get? name = some b) (hvalue : b.value.isSome = true)
  | imported (himport : ((w.scope s).record.import? name).isSome = true)
      (hmutable : b.mutable = false) (hdeletable : b.deletable = false)
  | property (o : ObjectId) (hplace : (w.scope s).record.backingFor? name = some o)
      (hmutable : b.mutable = true) (hdeletable : b.deletable = true)

variable [Embedding σ]

/-- A probe of a name of a backing object reports a binding that can be assigned to and deleted. -/
theorem Engine.probeBinding_of_backing (E : Engine σ) {w w₁ : World σ} {s : ScopeId} {name : String}
    {o : ObjectId} {strict : Bool} {b : Binding} {v : Value}
    (hplace : (w.scope s).record.backingFor? name = some o)
    (hprobe : E.probeBinding s name strict w = .ok (some (b, v)) w₁) :
    ∃ isWith w', (w.scope s).record.backing? = some (o, isWith) ∧
      E.backingHas o isWith name w = .ok true w' ∧ E.backingGet o name strict w' = .ok v w₁ ∧
      b.mutable = true ∧ b.deletable = true := by
  obtain ⟨hslot, isWith, hbacking⟩ := Record.backing_of_backingFor hplace
  rw [probeBinding, Action.bind_ok (Action.get_apply w)] at hprobe
  simp only [Record.import?_of_backingFor hplace, hbacking, hslot, Bool.false_eq_true,
    if_false] at hprobe
  obtain ⟨has, w', hhas, hprobe⟩ := Action.bind_eq_ok.1 hprobe
  cases has with
  | false => cases hprobe
  | true =>
      obtain ⟨v', w'', hget, hprobe⟩ := Action.bind_eq_ok.1 hprobe
      cases hprobe
      exact ⟨isWith, w', hbacking, hhas, hget, rfl, rfl⟩

/-- A name that is neither imported nor kept in a backing object is probed in the slots. -/
theorem Engine.probeBinding_of_slots (E : Engine σ) {w : World σ} {s : ScopeId} {name : String}
    (himport : (w.scope s).record.import? name = none)
    (hplace : (w.scope s).record.backingFor? name = none) (strict : Bool) :
    E.probeBinding s name strict w = .ok ((w.scope s).record.slots.probe name) w := by
  rcases Record.slot_or_backing_eq_none hplace with hslot | hbacking
  · exact probeBinding_of_slot himport hslot
  · rw [probeBinding, Action.bind_ok (Action.get_apply w)]
    simp only [himport, hbacking]
    rfl

omit [Embedding σ] in
/-- Outside a `with` statement, no code runs to find out whether a backing object has a name. -/
theorem Engine.backingHas_eq_ok (E : Engine σ) {w w' : World σ} {o : ObjectId} {name : String}
    {has : Bool} (h : E.backingHas o false name w = .ok has w') :
    has = w.hasProperty o name ∧ w' = w := by
  rw [backingHas, Action.bind_ok (Action.get_apply w)] at h
  cases hhas : w.hasProperty o name with
  | true =>
      rw [hhas] at h
      cases h
      exact ⟨rfl, rfl⟩
  | false =>
      rw [hhas] at h
      cases h
      exact ⟨rfl, rfl⟩

/-- **What a probe reports** depends on where the environment keeps the name. It may run code on
the way to a name that a `with` statement may hide, but not change where that name is kept. -/
theorem Program.probed (P : Program σ) (budget : Nat) {w w₁ : World σ} {s : ScopeId} {name : String}
    {strict : Bool} {b : Binding} {v : Value}
    (hquiet : ∀ o, (w.scope s).record.backingFor? name = some o → w.ReadsQuietly o name)
    (hprobe : (P.engine budget).probeBinding s name strict w = .ok (some (b, v)) w₁) :
    w₁.Probed s name b := by
  have hguarantee := World.recordsKeep_guarantee (σ := σ) Record.KeepsPlaces.refl
    Record.KeepsPlaces.trans (fun _ _ => Record.KeepsPlaces.of_step) .all
  have hP : P.AllRequests (·.Admitted .all) := fun _ _ =>
    Script.allRequests_of Request.admitted_all _
  have hkeep := (hguarantee.toGuarantee.probeBinding (hguarantee.engine hP budget) s name
    strict).of_ok hprobe
  cases hplace : (w.scope s).record.backingFor? name with
  | some o =>
      obtain ⟨isWith, w', hbacking, hhas, hget, hmutable, hdeletable⟩ :=
        Engine.probeBinding_of_backing _ hplace hprobe
      refine .property o ?_ hmutable hdeletable
      cases isWith with
      | true =>
          -- the record is that of a `with` statement, which never changes
          have hobject := Record.eq_object_of_backing hbacking
          have hlt : s.index < w.scopes.size :=
            World.index_lt_of_record (by rw [hobject]; nofun)
          rw [(hkeep.record s hlt).object o true hobject]
          rfl
      | false =>
          obtain ⟨hpresent, rfl⟩ := Engine.backingHas_eq_ok _ hhas
          rw [Engine.backingGet, Action.bind_ok (Action.get_apply w'), if_pos hpresent.symm,
            (hquiet o hplace).getProperty_eq] at hget
          cases hget
          exact hplace
  | none =>
      cases himport : (w.scope s).record.import? name with
      | some i =>
          have hlt : s.index < w.scopes.size :=
            World.index_lt_of_record fun hempty => by rw [hempty] at himport; cases himport
          rw [Engine.probeBinding_of_import himport] at hprobe
          obtain ⟨v', w', -, hprobe⟩ := Action.bind_eq_ok.1 hprobe
          cases hprobe
          exact .imported ((hkeep.record s hlt).imports name (Option.isSome_of_eq_some himport))
            rfl rfl
      | none =>
          rw [Engine.probeBinding_of_slots _ himport hplace] at hprobe
          obtain ⟨hslots, rfl⟩ := EStateM.Result.ok.inj hprobe
          rw [Bindings.probe] at hslots
          cases hslot : (w.scope s).record.slots.get? name with
          | none =>
              rw [hslot] at hslots
              cases hslots
          | some b' =>
              rw [hslot] at hslots
              obtain ⟨v', hvalue, hreported⟩ := Option.map_eq_some_iff.1 hslots
              cases hreported
              exact .slot himport hslot (Option.isSome_of_eq_some hvalue)

omit [Embedding σ] in
/-- A strict assignment to a property that is no accessor writes it, or is an error. -/
theorem Engine.setBinding_strict_of_backing (E : Engine σ) {w : World σ} {s : ScopeId}
    {name : String} {o : ObjectId} (hplace : (w.scope s).record.backingFor? name = some o)
    (hquiet : w.ReadsQuietly o name) (v : Value) :
    E.setBinding s name v true w =
      if w.hasProperty o name then
        if w.inheritsWritable o name && w.acceptsWrite o name then
          .ok () (w.putOwn o name (w.written o name v))
        else .error (.thrown (.readOnly name)) w
      else .error (.thrown (.notDefined name)) w := by
  rw [E.setBinding_of_backing hplace, backingSet_eq, setProperty_eq, setFor_eq E hquiet]
  cases w.hasProperty o name with
  | false => rfl
  | true =>
      dsimp only
      cases w.inheritsWritable o name && w.acceptsWrite o name <;> rfl

/-! ## When the flags are right -/

namespace Bindings

variable {bs : Bindings} {name : String} {b : Binding}

/-- A strict assignment to a slot with a value goes by its flag. -/
theorem assign_of_value (hslot : bs.get? name = some b) (hvalue : b.value.isSome = true)
    (v : Value) :
    bs.assign name v true =
      if b.mutable then .ok (bs.insert name { b with value := some v })
      else .error (.constantAssigned name) := by
  have hinitialized : b.value.isNone = false := by rwa [Option.isNone_eq_false_iff]
  rw [assign, hslot]
  simp only [hinitialized, Bool.false_eq_true, if_false, Bool.true_or, if_true]

/-- Only a constant with a value refuses a strict assignment by a type error. -/
theorem constant_of_assign_error {v : Value} {e : Error} (h : bs.assign name v true = .error e)
    (hkind : e.kind = .type) :
    ∃ b, bs.get? name = some b ∧ b.value.isSome = true ∧ b.mutable = false := by
  cases hslot : bs.get? name with
  | none =>
      rw [assign, hslot] at h
      cases h
      cases hkind
  | some b =>
      cases hvalue : b.value.isSome with
      | false =>
          have hmissing : b.value.isNone = true := by simpa using hvalue
          rw [assign, hslot] at h
          simp only [hmissing, if_true] at h
          cases h
          cases hkind
      | true =>
          rw [assign_of_value hslot hvalue] at h
          cases hmutable : b.mutable with
          | false => exact ⟨b, rfl, hvalue, hmutable⟩
          | true =>
              rw [hmutable] at h
              cases h

/-- Exactly the slots that cannot be deleted are kept. -/
theorem delete_of_slot (hslot : bs.get? name = some b) :
    bs.delete name = if b.deletable then some (bs.erase name) else none := by
  rw [delete, hslot]

end Bindings

omit [Embedding σ] in
/-- A strict assignment to a constant with a value is a type error that changes nothing. -/
theorem Engine.setBinding_constant (E : Engine σ) {w : World σ} {s : ScopeId} {name : String}
    {b : Binding} (hplace : (w.scope s).record.backingFor? name = none)
    (hslot : (w.scope s).record.slots.get? name = some b) (hvalue : b.value.isSome = true)
    (hmutable : b.mutable = false) (v : Value) :
    (E.setBinding s name v true).Throws .type w := by
  have hassign := Bindings.assign_of_value hslot hvalue v
  rw [hmutable] at hassign
  refine ⟨.constantAssigned name, rfl, ?_⟩
  rw [E.setBinding_of_slot hplace, updateSlots_eq]
  simp only [hassign]
  rfl

namespace World

variable {w : World σ} {s : ScopeId} {name : String} {b : Binding}

/-- The flags of a slot are right. -/
theorem tellsTruth_of_slot (himport : (w.scope s).record.import? name = none)
    (hslot : (w.scope s).record.slots.get? name = some b) (hvalue : b.value.isSome = true)
    (E : Engine σ) : w.TellsTruth E s name b := by
  have hcontains : (w.scope s).record.slots.contains name = true := by
    rw [Table.contains_eq_isSome, hslot]
    rfl
  have hplace : (w.scope s).record.backingFor? name = none := if_pos hcontains
  have hlt : s.index < w.scopes.size :=
    index_lt_of_record fun hempty => by
      rw [hempty] at hslot
      cases hslot
  refine ⟨?_, fun hmutable v => ?_, fun hmutable v => ?_⟩
  · rw [Engine.deleteBinding_of_slot hplace, Bindings.delete_of_slot hslot]
    cases b.deletable <;> exact ⟨_, rfl⟩
  · have hassign := Bindings.assign_of_value hslot hvalue v
    rw [if_pos hmutable] at hassign
    have hread : Bindings.read ((w.scope s).record.slots.insert name { b with value := some v })
        name = .ok v := by
      rw [Bindings.read_eq, Table.get?_insert, if_pos rfl]
      rfl
    have hset : E.setBinding s name v true w = .ok () (w.setRecord s
        ((w.scope s).record.withSlots
          ((w.scope s).record.slots.insert name { b with value := some v }))) := by
      rw [E.setBinding_of_slot hplace, Engine.updateSlots_eq]
      simp only [hassign]
    refine ⟨_, hset, fun strict => ?_⟩
    have hget := E.getReference_setRecord (r := ⟨some s, name, strict⟩) rfl hlt himport hplace hread
    rwa [E.getReference_of_base rfl] at hget
  · exact E.setBinding_constant hplace hslot hvalue hmutable v

/-- The flags of a constant that cannot be deleted are right for an import exactly if its slot is
one. -/
theorem tellsTruth_import_iff (himport : ((w.scope s).record.import? name).isSome = true)
    (hmutable : b.mutable = false) (hdeletable : b.deletable = false) (E : Engine σ) :
    w.TellsTruth E s name b ↔ (w.scope s).record.slots.HoldsConstant name := by
  have hplace : (w.scope s).record.backingFor? name = none := by
    obtain ⟨i, hi⟩ := Option.isSome_iff_exists.1 himport
    obtain ⟨slots, imports, hrecord, -⟩ := Record.eq_module_of_import hi
    rw [hrecord]
    exact ite_self none
  constructor
  · intro htruth
    obtain ⟨e, hkind, hset⟩ := htruth.refuses hmutable .undefined
    obtain ⟨w', hdelete⟩ := htruth.deletes
    rw [E.setBinding_of_slot hplace, Engine.updateSlots_eq] at hset
    cases hassign : (w.scope s).record.slots.assign name .undefined true with
    | ok slots =>
        rw [hassign] at hset
        cases hset
    | error e' =>
        rw [hassign] at hset
        cases hset
        obtain ⟨slot, hslot, hvalue, hconstant⟩ := Bindings.constant_of_assign_error hassign hkind
        refine ⟨slot, hslot, hvalue, hconstant, ?_⟩
        rw [Engine.deleteBinding_of_slot hplace, Bindings.delete_of_slot hslot,
          hdeletable] at hdelete
        cases hkept : slot.deletable with
        | false => rfl
        | true =>
            rw [hkept] at hdelete
            cases hdelete
  · rintro ⟨slot, hslot, hvalue, hconstant, hkept⟩
    refine ⟨⟨w, ?_⟩, fun hassigned => ?_, fun _ v => ?_⟩
    · rw [Engine.deleteBinding_of_slot hplace, Bindings.delete_of_slot hslot, hkept, hdeletable]
      rfl
    · rw [hmutable] at hassigned
      cases hassigned
    · exact E.setBinding_constant hplace hslot hvalue hconstant v

omit [Embedding σ] in
/-- Deleting succeeds unless there is a property that cannot be deleted. -/
theorem delete_fst_iff {w : World σ} {o : ObjectId} {key : PropertyKey} :
    (w.delete o key).1 = true ↔ ∀ p, w.own o key = some p → p.configurable = true := by
  rw [delete, Object.delete, own]
  cases (w.object o).own key with
  | none => simp
  | some p => cases hconfigurable : p.configurable <;> simp [hconfigurable]

omit [Embedding σ] in
/-- A property is free exactly if it can be written and nothing keeps it from being deleted. -/
theorem freeProperty_iff {w : World σ} {o : ObjectId} {key : PropertyKey} :
    w.FreeProperty o key ↔ w.hasProperty o key = true ∧
      (w.inheritsWritable o key && w.acceptsWrite o key) = true ∧ (w.delete o key).1 = true := by
  rw [Bool.and_eq_true, inheritsWritable_iff, acceptsWrite_iff, delete_fst_iff]
  constructor
  · rintro ⟨p, hlookup, hwritable, hconfigurable, hextensible⟩
    have hfound (q : Property) (hq : w.own o key = some q) : q = p :=
      Option.some.inj ((lookup_of_own hq).symm.trans hlookup)
    refine ⟨Option.isSome_of_eq_some hlookup, ⟨fun q hq => ?_, ?_⟩, fun q hq => ?_⟩
    · rwa [Option.some.inj (hq.symm.trans hlookup)]
    · cases hown : w.own o key with
      | none => exact .inl ⟨rfl, hextensible hown⟩
      | some q => exact .inr ⟨q, rfl, hfound q hown ▸ hwritable⟩
    · exact hfound q hq ▸ hconfigurable (hfound q hq ▸ hq)
  · rintro ⟨hpresent, ⟨hwritable, haccepted⟩, hconfigurable⟩
    obtain ⟨p, hlookup⟩ := Option.isSome_iff_exists.1 hpresent
    refine ⟨p, hlookup, hwritable p hlookup, hconfigurable p, fun hown => ?_⟩
    rcases haccepted with ⟨-, hextensible⟩ | ⟨q, hq, -⟩
    · exact hextensible
    · rw [hown] at hq
      cases hq

/-- The flags of a binding that can be assigned to and deleted are right for a property exactly if
it is a free one. -/
theorem tellsTruth_property_iff {o : ObjectId}
    (hplace : (w.scope s).record.backingFor? name = some o) (hquiet : w.ReadsQuietly o name)
    (hmutable : b.mutable = true) (hdeletable : b.deletable = true) (E : Engine σ) :
    w.TellsTruth E s name b ↔ w.FreeProperty o name := by
  have hset := E.setBinding_strict_of_backing hplace hquiet
  have hdelete := Engine.deleteBinding_of_backing hplace
  rw [freeProperty_iff]
  constructor
  · intro htruth
    obtain ⟨w₁, hassigned, -⟩ := htruth.assigns hmutable .undefined
    obtain ⟨w₂, hdeleted⟩ := htruth.deletes
    rw [hset] at hassigned
    rw [hdelete, hdeletable] at hdeleted
    have hfree : (w.delete o name).1 = true := by
      split at hdeleted
      · exact (EStateM.Result.ok.inj hdeleted).1
      · next hmissing =>
        exact delete_fst_iff.2 fun p hp => absurd (Option.isSome_of_eq_some hp) hmissing
    split at hassigned
    · next hpresent =>
      split at hassigned
      · next haccepted => exact ⟨hpresent, haccepted, hfree⟩
      · cases hassigned
    · cases hassigned
  · rintro ⟨hpresent, haccepted, hfree⟩
    have hlt : o.index < w.objects.size := by
      refine Nat.lt_of_not_le fun hle => ?_
      rw [hasProperty, lookup_of_size_le hle] at hpresent
      cases hpresent
    refine ⟨?_, fun _ v => ?_, fun hconstant => ?_⟩
    · rw [hdelete, hdeletable, hfree]
      split <;> exact ⟨_, rfl⟩
    · refine ⟨w.putOwn o name (w.written o name v), ?_, fun strict => ?_⟩
      · rw [hset, if_pos hpresent, if_pos haccepted]
      · obtain ⟨_, _, hown⟩ := own_written hlt name v
        have hget := E.getReference_of_own (r := ⟨some s, name, strict⟩) rfl
          (show ((w.putOwn o name (w.written o name v)).scope s).record.import? name = none from
            Record.import?_of_backingFor hplace name) hplace hown
        rwa [E.getReference_of_base rfl] at hget
    · rw [hmutable] at hconstant
      cases hconstant

end World

/-- **When the flags of a probe are right.** Let a probe report a binding for a name whose value is
behind no accessor. If the name is a slot, then its flags are right. If it is an import, they are
right exactly if its slot is a constant that cannot be deleted; and if it is a property of a backing
object, exactly if this is a free one. -/
theorem Program.probeBinding_tellsTruth_iff (P : Program σ) (budget : Nat) {w w₁ : World σ}
    {s : ScopeId} {name : String} {strict : Bool} {b : Binding} {v : Value}
    (hprobe : (P.engine budget).probeBinding s name strict w = .ok (some (b, v)) w₁)
    (hquiet : ∀ o, (w.scope s).record.backingFor? name = some o → w.ReadsQuietly o name)
    (hquiet₁ : ∀ o, (w₁.scope s).record.backingFor? name = some o → w₁.ReadsQuietly o name)
    (E : Engine σ) :
    w₁.TellsTruth E s name b ↔
      (((w₁.scope s).record.import? name).isSome = true →
        (w₁.scope s).record.slots.HoldsConstant name) ∧
      ∀ o, (w₁.scope s).record.backingFor? name = some o → w₁.FreeProperty o name := by
  cases P.probed budget hquiet hprobe with
  | slot himport hslot hvalue =>
      refine iff_of_true (World.tellsTruth_of_slot himport hslot hvalue E) ⟨?_, fun o ho => ?_⟩
      · rw [himport]
        nofun
      · obtain ⟨hmissing, -⟩ := Record.backing_of_backingFor ho
        rw [Table.contains_eq_isSome, hslot] at hmissing
        cases hmissing
  | imported himport hmutable hdeletable =>
      rw [World.tellsTruth_import_iff himport hmutable hdeletable E]
      refine ⟨fun hconstant => ⟨fun _ => hconstant, fun o ho => ?_⟩, fun h => h.1 himport⟩
      rw [Record.import?_of_backingFor ho] at himport
      cases himport
  | property o hplace hmutable hdeletable =>
      rw [World.tellsTruth_property_iff hplace (hquiet₁ o hplace) hmutable hdeletable E]
      refine ⟨fun hfree => ⟨?_, fun o' ho' => ?_⟩, fun h => h.2 o hplace⟩
      · rw [Record.import?_of_backingFor hplace]
        nofun
      · rw [hplace] at ho'
        cases ho'
        exact hfree

/-- A property that an object inherits, and that it can shadow. -/
theorem Program.probeBinding_of_inherited :
    let w : World Unit :=
      { World.empty none (.below 0) () with
        objects := #[⟨none, true, Table.empty.insert "x" (.data .null true false false), .plain⟩,
          ⟨some ⟨0⟩, true, .empty, .plain⟩]
        scopes := #[⟨.object ⟨1⟩ false, none⟩] }
    let E := Program.engine (fun _ _ => .done .undefined : Program Unit) 0
    ∃ b, E.probeBinding ⟨0⟩ "x" true w = .ok (some (b, .null)) w ∧ w.TellsTruth E ⟨0⟩ "x" b := by
  intro w E
  have hlookup : w.lookup ⟨1⟩ "x" = some (.data .null true false false) := by decide +kernel
  have hprobe : E.probeBinding ⟨0⟩ "x" true w = .ok (some (⟨some .null, true, true, false⟩, .null))
      w := rfl
  have hplace : (w.scope ⟨0⟩).record.backingFor? "x" = some ⟨1⟩ := rfl
  have hquiet : ∀ o, (w.scope ⟨0⟩).record.backingFor? "x" = some o → w.ReadsQuietly o "x" := by
    intro o ho p hp
    rw [hplace] at ho
    cases ho
    rw [hlookup] at hp
    cases hp
    rfl
  refine ⟨_, hprobe, (Program.probeBinding_tellsTruth_iff (fun _ _ => .done .undefined) 0 hprobe
    hquiet hquiet E).2 ⟨nofun, fun o ho => ?_⟩⟩
  rw [hplace] at ho
  cases ho
  have hown : w.own ⟨1⟩ "x" = none := rfl
  refine ⟨_, hlookup, rfl, fun hsome => ?_, fun _ => rfl⟩
  rw [hown] at hsome
  cases hsome

/-- A name that is created as one that cannot be deleted, and a property that is read-only: a probe
reports of both that they can be assigned to and deleted. -/
theorem Engine.probeBinding_overlooks :
    let w : World Unit :=
      { World.empty none (.below 0) () with
        objects := #[⟨none, true, Table.empty.insert "c" (.data .null false false false), .plain⟩]
        scopes := #[⟨.object ⟨0⟩ false, none⟩] }
    let w₁ := (Engine.createMutable ⟨0⟩ "x" false).after w
    ∀ E : Engine Unit, Engine.createMutable ⟨0⟩ "x" false w = .ok () w₁ ∧
      E.probeBinding ⟨0⟩ "x" true w₁ =
        .ok (some (⟨some .undefined, true, true, false⟩, .undefined)) w₁ ∧
      Engine.deleteBinding ⟨0⟩ "x" w₁ = .ok false w₁ ∧
      E.probeBinding ⟨0⟩ "c" true w₁ = .ok (some (⟨some .null, true, true, false⟩, .null)) w₁ ∧
      E.setBinding ⟨0⟩ "c" .undefined true w₁ = .error (.thrown (.readOnly "c")) w₁ := by
  intro w w₁ E
  exact ⟨rfl, rfl, rfl, rfl, rfl⟩

end EcmaCore
