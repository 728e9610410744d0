import EcmaCore.Proofs.Object.Define
import EcmaCore.Proofs.World.Lookup

/-!
# Assigning to a property

An assignment looks up the property first. A setter that is found there is called, and
that is all; a read-only property, its own or inherited, is an objection. Otherwise the
value is written into the receiver, which may be another object and has a say of its own:
`World.acceptsWrite` is what it says, and `World.written` the property that it gets.

## Main results

* `Engine.writeOwn_eq`: writing into the receiver is one question and one insertion.
* `Engine.setFor_eq`: an assignment that finds no accessor, likewise.
* `Engine.setProperty_eq`, `Engine.setProperty_cases`: an assignment that must succeed.
* `Engine.assign_spec`: all of it, with what can be read afterwards.
-/

namespace EcmaCore

variable {σ : Type}

/-! ## Writing into the receiver -/

namespace World

/-- Whether an object takes a value as a property of its own: in place of the value of a writable
one, or as a new one if the object is extensible. -/
def acceptsWrite (w : World σ) (r : ObjectId) (key : PropertyKey) : Bool :=
  (w.own r key).elim (w.object r).extensible Property.writable

/-- The data property that a written value makes of an object's own property: the flags stay, and a
new one is writable, enumerable and configurable. -/
def written (w : World σ) (r : ObjectId) (key : PropertyKey) (v : Value) : Property :=
  (w.own r key).elim (.data v true true true) fun p => .data v true p.enumerable p.configurable

/-- Whether nothing that a lookup finds objects to an assignment. -/
def inheritsWritable (w : World σ) (o : ObjectId) (key : PropertyKey) : Bool :=
  (w.lookup o key).all Property.writable

theorem acceptsWrite_iff (w : World σ) (r : ObjectId) (key : PropertyKey) :
    w.acceptsWrite r key = true ↔
      w.own r key = none ∧ (w.object r).extensible = true ∨
        ∃ p, w.own r key = some p ∧ p.writable = true := by
  unfold acceptsWrite
  cases w.own r key <;> simp

theorem inheritsWritable_iff (w : World σ) (o : ObjectId) (key : PropertyKey) :
    w.inheritsWritable o key = true ↔ ∀ p, w.lookup o key = some p → p.writable = true := by
  unfold inheritsWritable
  cases w.lookup o key <;> simp

/-- An object that a value was written into has it as a writable data property of its own. -/
theorem own_written {w : World σ} {r : ObjectId} (hr : r.index < w.objects.size)
    (key : PropertyKey) (v : Value) :
    ∃ enumerable configurable, (w.putOwn r key (w.written r key v)).own r key =
      some (.data v true enumerable configurable) := by
  rw [own_putOwn_self hr, written]
  cases w.own r key with
  | none => exact ⟨true, true, rfl⟩
  | some p => exact ⟨p.enumerable, p.configurable, rfl⟩

/-- An object that is not there has no properties. -/
theorem lookup_of_size_le {w : World σ} {o : ObjectId} (h : w.objects.size ≤ o.index)
    (key : PropertyKey) : w.lookup o key = none := by
  have hown : w.own o key = none := by
    rw [own, object_of_size_le w h]
    rfl
  have hprototype : (w.object o).prototype = none := by
    rw [object_of_size_le w h]
    rfl
  rw [lookup, prototypeChain, prototypesWithin, List.findSome?_cons, hown, hprototype]
  rfl

end World

namespace PropertyUpdate

/-- A writable property admits every value. -/
theorem allowedOn_valueOnly (v current : Value) (enumerable configurable : Bool) :
    (valueOnly v).allowedOn (.data current true enumerable configurable) = true := by
  cases configurable <;> rfl

end PropertyUpdate

namespace Engine

variable {w : World σ} {o r : ObjectId} {key : PropertyKey} {v receiver : Value}

/-- Writing into the receiver asks whether it accepts the value, and then puts it in. -/
theorem writeOwn_eq (w : World σ) (r : ObjectId) (key : PropertyKey) (v : Value) :
    writeOwn r key v w =
      if w.acceptsWrite r key then .ok true (w.putOwn r key (w.written r key v))
      else .ok false w := by
  rw [writeOwn, Action.bind_ok (Action.get_apply w), World.acceptsWrite, World.written]
  cases hown : w.own r key with
  | none =>
      have hadmits : (w.object r).admits key (.ordinary v) = (w.object r).extensible := by
        rw [Object.admits, show (w.object r).own key = none from hown]
        rfl
      show Action.change (·.define r key (.ordinary v)) w = _
      rw [Action.change_apply, World.define_eq_putOwn, hadmits, hown]
      show _ = if (w.object r).extensible = true then _ else _
      split <;> rfl
  | some p =>
      cases p with
      | accessor getter setter enumerable configurable => rfl
      | data current writable enumerable configurable =>
          cases writable with
          | false => rfl
          | true =>
              have hadmits : (w.object r).admits key (.valueOnly v) = true := by
                rw [Object.admits, show (w.object r).own key = _ from hown]
                exact PropertyUpdate.allowedOn_valueOnly v current enumerable configurable
              show Action.change (·.define r key (.valueOnly v)) w = _
              rw [Action.change_apply, World.define_eq_putOwn, hadmits, hown]
              rfl

/-! ## Assigning -/

/-- An assignment that finds an accessor without a setter has no effect. -/
theorem setFor_of_setterless (E : Engine σ) {getter : Option ObjectId}
    {enumerable configurable : Bool}
    (h : w.lookup o key = some (.accessor getter none enumerable configurable)) :
    E.setFor o key v receiver w = .ok false w := by
  unfold setFor
  rw [Action.bind_ok (Action.get_apply w), h]
  rfl

/-- An assignment that finds a setter is a call of it. -/
theorem setFor_of_setter (E : Engine σ) {getter : Option ObjectId} {setter : ObjectId}
    {enumerable configurable : Bool}
    (h : w.lookup o key = some (.accessor getter (some setter) enumerable configurable)) :
    E.setFor o key v receiver w =
      match (E.call setter receiver [v]).holding
          (.object setter :: getter.toList.map .object) w with
      | .ok _ w' => .ok true w'
      | .error e w' => .error e w' := by
  unfold setFor
  rw [Action.bind_ok (Action.get_apply w), h]
  dsimp only
  generalize hcall :
    (E.call setter receiver [v]).holding (.object setter :: getter.toList.map .object) = call
  cases hrun : call w with
  | ok a w' => rw [Action.bind_ok hrun, Action.pure_apply]
  | error e w' => rw [Action.bind_error hrun]

/-- An assignment that finds no accessor asks what it finds, and then the receiver. -/
theorem setFor_eq (E : Engine σ) (h : w.ReadsQuietly o key) (v receiver : Value) :
    E.setFor o key v receiver w =
      match receiver with
      | .object r =>
          if w.inheritsWritable o key && w.acceptsWrite r key then
            .ok true (w.putOwn r key (w.written r key v))
          else .ok false w
      | _ => .ok false w := by
  have hwrite : (match receiver with
      | .object r => writeOwn r key v
      | _ => return false : Action σ Bool) w =
      match receiver with
      | .object r =>
          if w.acceptsWrite r key then .ok true (w.putOwn r key (w.written r key v))
          else .ok false w
      | _ => .ok false w := by
    cases receiver with
    | object r => exact writeOwn_eq w r key v
    | _ => rfl
  unfold setFor
  rw [Action.bind_ok (Action.get_apply w), World.inheritsWritable]
  cases hlookup : w.lookup o key with
  | none => exact hwrite
  | some p =>
      cases p with
      | accessor getter setter enumerable configurable => cases h _ hlookup
      | data current writable enumerable configurable =>
          cases writable with
          | true => exact hwrite
          | false => cases receiver <;> rfl

/-- An assignment that must succeed turns having no effect into an error. -/
theorem setProperty_eq (E : Engine σ) (o : ObjectId) (key : PropertyKey) (v : Value)
    (mustSucceed : Bool) (w : World σ) :
    E.setProperty o key v mustSucceed w =
      match E.setFor o key v (.object o) w with
      | .ok false w' =>
          if mustSucceed then .error (.thrown (.readOnly key.display)) w' else .ok false w'
      | outcome => outcome := by
  rw [setProperty]
  cases hset : E.setFor o key v (.object o) w with
  | error e w' => rw [Action.bind_error hset]
  | ok done w' =>
      rw [Action.bind_ok hset]
      cases done <;> cases mustSucceed <;> rfl

/-- An assignment of a property that is no accessor puts the value in, has no effect, or is an error
if it must succeed. -/
theorem setProperty_cases (E : Engine σ) (h : w.ReadsQuietly o key) (v : Value)
    (mustSucceed : Bool) :
    E.setProperty o key v mustSucceed w = .ok true (w.putOwn o key (w.written o key v)) ∨
      mustSucceed = false ∧ E.setProperty o key v mustSucceed w = .ok false w ∨
      mustSucceed = true ∧
        E.setProperty o key v mustSucceed w = .error (.thrown (.readOnly key.display)) w := by
  rw [setProperty_eq, setFor_eq E h]
  dsimp only
  by_cases haccepts : (w.inheritsWritable o key && w.acceptsWrite o key) = true
  · rw [if_pos haccepts]
    exact .inl rfl
  · rw [if_neg haccepts]
    cases mustSucceed with
    | false => exact .inr (.inl ⟨rfl, rfl⟩)
    | true => exact .inr (.inr ⟨rfl, rfl⟩)

/-- An assignment has no effect only if it changes nothing. -/
theorem eq_of_setFor_false (E : Engine σ) {w' : World σ}
    (h : E.setFor o key v receiver w = .ok false w') : w' = w := by
  by_cases hquiet : w.ReadsQuietly o key
  · rw [setFor_eq E hquiet] at h
    split at h
    · split at h <;> cases h
      rfl
    · cases h
      rfl
  · obtain ⟨p, hp⟩ := Classical.not_forall.1 hquiet
    obtain ⟨hlookup, haccessor⟩ := Classical.not_imp.1 hp
    cases p with
    | data => exact absurd rfl haccessor
    | accessor getter setter enumerable configurable =>
        cases setter with
        | none =>
            rw [setFor_of_setterless E hlookup] at h
            cases h
            rfl
        | some setter =>
            rw [setFor_of_setter E hlookup] at h
            split at h <;> cases h

/-- What was written can be read. -/
theorem getProperty_putOwn_written (E : Engine σ) (hr : r.index < w.objects.size)
    (key : PropertyKey) (v : Value) :
    E.getProperty r key (w.putOwn r key (w.written r key v)) =
      .ok v (w.putOwn r key (w.written r key v)) := by
  obtain ⟨_, _, hown⟩ := World.own_written hr key v
  exact World.getProperty_of_data E (World.lookup_of_own hown)

/-- **What assigning to a property does.** If the lookup of the key finds a setter, the assignment
is one call of it for the receiver with the value alone and ends as this call does; without a setter
it has no effect. If the lookup finds no accessor, the assignment ends well, and takes effect
exactly if what the lookup finds is writable and the receiver is an object that accepts the value.
Then the receiver has the value as a data property of its own, where it can be read, and nothing
else is different. An assignment without effect changes nothing, and exactly these are errors if
the assignment must succeed. -/
theorem assign_spec (E : Engine σ) (w : World σ) (o : ObjectId) (key : PropertyKey)
    (v receiver : Value) (hreceiver : ∀ r, receiver = .object r → r.index < w.objects.size) :
    (∀ getter enumerable configurable,
      w.lookup o key = some (.accessor getter none enumerable configurable) →
        E.setFor o key v receiver w = .ok false w) ∧
    (∀ getter setter enumerable configurable,
      w.lookup o key = some (.accessor getter (some setter) enumerable configurable) →
        E.setFor o key v receiver w =
          match (E.call setter receiver [v]).holding
              (.object setter :: getter.toList.map .object) w with
          | .ok _ w' => .ok true w'
          | .error e w' => .error e w') ∧
    (w.ReadsQuietly o key →
      ∃ done w', E.setFor o key v receiver w = .ok done w' ∧
        (done = true ↔ (∀ p, w.lookup o key = some p → p.writable = true) ∧
          ∃ r, receiver = .object r ∧
            (w.own r key = none ∧ (w.object r).extensible = true ∨
              ∃ p, w.own r key = some p ∧ p.writable = true)) ∧
        (done = true → ∀ r, receiver = .object r →
          (w.own r key = none → w'.own r key = some (.data v true true true)) ∧
          (∀ p, w.own r key = some p →
            w'.own r key = some (.data v true p.enumerable p.configurable)) ∧
          E.getProperty r key w' = .ok v w' ∧ w.DiffersAtProperty r key w')) ∧
    (∀ w', E.setFor o key v receiver w = .ok false w' → w' = w) ∧
    (∀ mustSucceed, E.setProperty o key v mustSucceed w =
      match E.setFor o key v (.object o) w with
      | .ok false w' =>
          if mustSucceed then .error (.thrown (.readOnly key.display)) w' else .ok false w'
      | outcome => outcome) ∧
    (Error.readOnly key.display).kind = .type := by
  refine ⟨fun _ _ _ h => setFor_of_setterless E h, fun _ _ _ _ h => setFor_of_setter E h,
    fun hquiet => ?_, fun w' h => eq_of_setFor_false E h,
    fun mustSucceed => E.setProperty_eq o key v mustSucceed w, rfl⟩
  have hset := E.setFor_eq hquiet v receiver
  simp only [← World.inheritsWritable_iff, ← World.acceptsWrite_iff]
  cases receiver with
  | object r =>
      have hr : r.index < w.objects.size := hreceiver r rfl
      dsimp only at hset
      by_cases haccepts : (w.inheritsWritable o key && w.acceptsWrite r key) = true
      · rw [if_pos haccepts] at hset
        rw [Bool.and_eq_true] at haccepts
        refine ⟨true, _, hset, ?_, ?_⟩
        · simp [haccepts]
        · rintro - _ ⟨⟩
          have hown := World.own_putOwn_self hr key (w.written r key v)
          refine ⟨fun hnone => ?_, fun p hp => ?_, getProperty_putOwn_written E hr key v,
            w.differsAtProperty_putOwn r key _⟩
          · rw [hown, World.written, hnone]
            rfl
          · rw [hown, World.written, hp]
            rfl
      · rw [if_neg haccepts] at hset
        rw [Bool.and_eq_true] at haccepts
        refine ⟨false, _, hset, ?_, nofun⟩
        simpa using haccepts
  | _ => exact ⟨false, _, hset, by simp, nofun⟩

/-- An assignment past an inherited writable property adds a property that shadows it. -/
theorem assign_spec_inherited :
    let E : Engine Unit := .exhausted
    let w : World Unit :=
      { World.empty none (.below 0) () with
        objects := #[⟨none, true, Table.empty.insert "x" (.data .null true false false), .plain⟩,
          ⟨some ⟨0⟩, true, .empty, .plain⟩] }
    ∃ w', E.setFor ⟨1⟩ "x" (.boolean true) (.object ⟨1⟩) w = .ok true w' ∧
      w'.own ⟨1⟩ "x" = some (.data (.boolean true) true true true) ∧
      w'.own ⟨0⟩ "x" = some (.data .null true false false) ∧
      E.getProperty ⟨1⟩ "x" w' = .ok (.boolean true) w' := by
  intro E w
  have hlookup : w.lookup ⟨1⟩ "x" = some (.data .null true false false) := by decide +kernel
  have hown : w.own ⟨1⟩ "x" = none := by decide +kernel
  obtain ⟨-, -, hquiet, -⟩ := E.assign_spec w ⟨1⟩ "x" (.boolean true) (.object ⟨1⟩)
    (by
      rintro _ ⟨⟩
      exact Nat.lt_succ_self 1)
  obtain ⟨done, w', hset, htakes, hafter⟩ := hquiet (by
    rw [World.ReadsQuietly, hlookup]
    rintro _ ⟨⟩
    rfl)
  have hdone : done = true := by
    refine htakes.2 ⟨?_, ⟨1⟩, rfl, .inl ⟨hown, by decide +kernel⟩⟩
    rw [hlookup]
    rintro _ ⟨⟩
    rfl
  subst hdone
  obtain ⟨hnew, -, hread, hframe⟩ := hafter rfl ⟨1⟩ rfl
  refine ⟨w', hset, hnew hown, ?_, hread⟩
  rw [World.own, hframe.object ⟨0⟩ (by decide)]
  decide +kernel

end Engine

end EcmaCore
