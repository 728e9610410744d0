import EcmaCore.Proofs.Scope.ImportChain
import EcmaCore.Proofs.Scope.Slots
import EcmaCore.Proofs.World.Scopes

/-!
# Imported names

A module record knows an imported name twice: in its table of imports, which reads
look at, and as a slot, which everything else looks at. Importing a name creates the
slot as a constant, but keeps a slot that is there already. So the two agree that the
name can be read and neither assigned to nor deleted exactly if it had no slot, or a
fixed one, when it was imported.

## Main results

* `Record.Step.pinsImport`: no step of a record unpins the slot of an import.
* `Program.runScript_pinsImport`: so no run does.
* `Record.BoundLast.pinsImport`: imports of names without a slot have pinned slots.
* `Engine.createImport_holds_iff`: an import is what it should be, whatever is done to
  the record afterwards, exactly if its slot was free or fixed.
-/

namespace EcmaCore

/-! ## Records -/

namespace Record

variable {r r' : Record} {name : String} {i : Import}

/-- Only module records import. -/
theorem eq_module_of_import (h : r.import? name = some i) :
    ∃ slots imports, r = .module slots imports ∧ imports.get? name = some i := by
  cases r with
  | module slots imports => exact ⟨slots, imports, rfl, h⟩
  | _ => cases h

/-- An import enters the table and makes the slot of its name a value, with the flags of the slot
that is there or else those of a constant. -/
theorem addImport_module (slots : Bindings) (imports : Table String Import) (name : String)
    (target : Import) :
    ∃ slots', (Record.module slots imports).addImport name target =
        .ok (.module slots' (imports.insert name target)) ∧
      ∀ other, slots'.get? other =
        if name = other then
          some { (slots.get? name).getD ⟨none, false, false, true⟩ with value := some .undefined }
        else slots.get? other := by
  have hcreated (other : String) : (slots.create name false false true).get? other =
      if name = other then some ((slots.get? name).getD ⟨none, false, false, true⟩)
      else slots.get? other := by
    rw [Bindings.get?_create]
    by_cases heq : name = other
    · subst heq
      cases slots.get? name <;> simp
    · simp [heq]
  have hslot : ((slots.create name false false true).get? name).isSome := by
    rw [hcreated, if_pos rfl]
    rfl
  obtain ⟨slots', hinit⟩ := Bindings.init_eq_ok_iff.2 hslot
  refine ⟨slots', ?_, fun other => ?_⟩
  · rw [addImport, hinit]
    rfl
  · rw [Bindings.get?_init hinit, hcreated, hcreated]
    by_cases heq : name = other
    · simp [heq]
    · simp [heq]

/-- An import has a pinned slot exactly if the name had no slot or a fixed one. -/
theorem pinned_addImport_iff {slots slots' : Bindings}
    (h : slots'.get? name =
      some { (slots.get? name).getD ⟨none, false, false, true⟩ with value := some .undefined }) :
    slots'.Pinned name ↔ ∀ b, slots.get? name = some b → b.IsFixed := by
  constructor
  · rintro ⟨b', hb', -, hfixed⟩ b hb
    rw [h, hb] at hb'
    cases hb'
    exact hfixed
  · intro hfixed
    refine ⟨_, h, rfl, ?_⟩
    cases hb : slots.get? name with
    | none => exact ⟨rfl, rfl, rfl⟩
    | some b => exact hfixed b hb

/-- Importing any name keeps a pinned slot. -/
theorem pinned_addImport {slots slots' : Bindings} {other : String}
    (h : ∀ x, slots'.get? x =
      if other = x then
        some { (slots.get? other).getD ⟨none, false, false, true⟩ with value := some .undefined }
      else slots.get? x)
    (hpinned : slots.Pinned name) : slots'.Pinned name := by
  obtain ⟨b, hb, hvalue, hfixed⟩ := hpinned
  by_cases heq : other = name
  · subst heq
    refine (pinned_addImport_iff ((h other).trans (if_pos rfl))).2 fun b' hb' => ?_
    rw [hb] at hb'
    cases hb'
    exact hfixed
  · exact ⟨b, by rw [h, if_neg heq, hb], hvalue, hfixed⟩

/-- A name is an import with a pinned slot. -/
def PinsImport (r : Record) (name : String) : Prop :=
  (r.import? name).isSome ∧ r.slots.Pinned name

/-- No step of a record drops an import with a pinned slot, or unpins the slot. -/
theorem Step.pinsImport (h : r.Step r') (hpins : r.PinsImport name) : r'.PinsImport name := by
  obtain ⟨himport, hpinned⟩ := hpins
  obtain ⟨i, hi⟩ := Option.isSome_iff_exists.1 himport
  obtain ⟨slots, imports, rfl, hname⟩ := eq_module_of_import hi
  cases h with
  | create other mutable deletable strict => exact ⟨himport, hpinned.create other _ _ _⟩
  | init hinit => exact ⟨himport, hpinned.init hinit⟩
  | assign hassign => exact ⟨himport, hpinned.assign hassign⟩
  | delete hdelete => exact ⟨himport, hpinned.delete hdelete⟩
  | bindThis hbound => cases hbound
  | addVarName other => exact ⟨himport, hpinned⟩
  | removeVarName other => exact ⟨himport, hpinned⟩
  | @addImport other target extended hextended =>
      obtain ⟨slots', hok, hslots⟩ := addImport_module slots imports other target
      rw [hok] at hextended
      cases hextended
      refine ⟨?_, pinned_addImport hslots hpinned⟩
      show ((imports.insert other target).get? name).isSome
      rw [Table.get?_insert]
      split
      · rfl
      · exact himport

/-- A name is imported from `i`, and its slot is pinned if it was so in `before`. -/
def StillImports (r : Record) (before : Bindings) (name : String) (i : Import) : Prop :=
  ∃ slots imports, r = .module slots imports ∧ imports.get? name = some i ∧
    (before.Pinned name → slots.Pinned name)

/-- How a record comes about in which no name had a slot of its own when it was imported: from an
empty module record, by steps that leave the imports alone and by imports of names without a slot
or that are imports already. -/
inductive BoundLast : Record → Prop
  | empty : BoundLast (.module .empty .empty)
  | step {r r' : Record} (before : BoundLast r) (h : r.Step r')
      (himports : ∀ name, r'.import? name = r.import? name) : BoundLast r'
  | addImport {r r' : Record} (before : BoundLast r) {name : String} {target : Import}
      (hfree : r.slots.get? name = none ∨ (r.import? name).isSome)
      (h : r.addImport name target = .ok r') : BoundLast r'

/-- Every import of such a record has a pinned slot. -/
theorem BoundLast.pinsImport (h : r.BoundLast) (himport : (r.import? name).isSome) :
    r.PinsImport name := by
  induction h with
  | empty => cases himport
  | step before hstep himports ih =>
      rw [himports] at himport
      exact hstep.pinsImport (ih himport)
  | @addImport r r' before other target hfree hadd ih =>
      by_cases hbefore : (r.import? name).isSome = true
      · exact Step.pinsImport (.addImport hadd) (ih hbefore)
      · -- the name is new, so it is the one that is imported
        refine ⟨himport, ?_⟩
        cases r with
        | module slots imports =>
            obtain ⟨slots', hok, hslots⟩ := addImport_module slots imports other target
            rw [hok] at hadd
            cases hadd
            have himported : ((imports.insert other target).get? name).isSome = true := himport
            rw [Table.get?_insert] at himported
            split at himported
            · next heq =>
              subst heq
              have hnone : slots.get? other = none := hfree.resolve_right hbefore
              refine (pinned_addImport_iff ((hslots other).trans (if_pos rfl))).2 fun b hb => ?_
              rw [hnone] at hb
              cases hb
            · exact absurd himported hbefore
        | _ =>
            cases hadd
            exact absurd himport hbefore

end Record

variable {σ : Type}

/-- No run drops an import with a pinned slot, or unpins the slot. -/
theorem Program.runScript_pinsImport [Embedding σ] {α : Type} (P : Program σ) (budget : Nat)
    (script : Script σ α) (w : World σ) {s : ScopeId} {name : String}
    (hpins : (w.scope s).record.PinsImport name) :
    (((P.runScript budget script).after w).scope s).record.PinsImport name := by
  have hguarantee := World.recordsKeep_guarantee (σ := σ)
    (Q := fun r r' => r.PinsImport name → r'.PinsImport name) (fun _ => id) (fun h h' => h' ∘ h)
    (fun _ _ => Record.Step.pinsImport) .all
  have hlt : s.index < w.scopes.size := by
    refine Nat.lt_of_not_le fun hle => ?_
    rw [w.scope_of_size_le hle] at hpins
    cases hpins.1
  have hP : P.AllRequests (·.Admitted .all) := fun _ _ =>
    Script.allRequests_of Request.admitted_all _
  have hrun := hguarantee.runScript hP budget (Script.allRequests_of Request.admitted_all script) w
  exact hrun.record s hlt hpins

/-! ## Environments -/

/-- A name of an environment is an import and nothing else: it is there, it can be neither deleted
nor assigned to, and it is read from the module it comes from. -/
structure World.HoldsImport [Embedding σ] (w : World σ) (s : ScopeId) (name : String)
    (i : Import) : Prop where
  has : ∀ E : Engine σ, E.hasBinding s name w = .ok true w
  delete : Engine.deleteBinding s name w = .ok false w
  set : ∀ (E : Engine σ) (v : Value) (strict : Bool),
    E.setBinding s name v strict w = .error (.thrown (.constantAssigned name)) w
  get : ∀ (E : Engine σ) (strict : Bool), E.getBinding s name strict w = E.readImport name i w

/-- Deleting a name of a module environment deletes its slot. -/
theorem Engine.deleteBinding_of_module {w : World σ} {s : ScopeId} {slots : Bindings}
    {imports : Table String Import} (hrecord : (w.scope s).record = .module slots imports)
    (name : String) :
    Engine.deleteBinding s name w =
      match slots.delete name with
      | some slots' => .ok true (w.setRecord s (.module slots' imports))
      | none => .ok false w := by
  rw [Engine.deleteBinding, Action.change_apply]
  simp only [hrecord, Record.backing?, Record.slots]
  cases slots.delete name <;> rfl

namespace World

variable [Embedding σ] {w : World σ} {s : ScopeId} {name : String} {i : Import} {slots : Bindings}
  {imports : Table String Import}

/-- An import with a pinned slot is an import and nothing else. -/
theorem holdsImport_of_pinned (hrecord : (w.scope s).record = .module slots imports)
    (himport : imports.get? name = some i) (hpinned : slots.Pinned name) :
    w.HoldsImport s name i := by
  refine ⟨fun E => ?_, ?_, fun E v strict => ?_, fun E strict => ?_⟩
  · rw [Engine.hasBinding, Action.bind_ok (Action.get_apply w)]
    simp only [hrecord]
    rw [if_pos (show (Record.module slots imports).slots.contains name = true from
      hpinned.contains_eq)]
    rfl
  · rw [Engine.deleteBinding_of_module hrecord, hpinned.delete_eq]
  · rw [Engine.setBinding, Action.bind_ok (Action.get_apply w)]
    simp only [hrecord, Record.backing?]
    apply Action.attempt_error
    simp only [hrecord, Record.slots, hpinned.assign_eq]
    rfl
  · apply Engine.getBinding_of_import
    rw [hrecord]
    exact himport

/-- Only an import with a pinned slot is an import and nothing else. -/
theorem HoldsImport.pinned (h : w.HoldsImport s name i)
    (hrecord : (w.scope s).record = .module slots imports) : slots.Pinned name := by
  have hset := h.set .exhausted .undefined false
  rw [Engine.setBinding, Action.bind_ok (Action.get_apply w)] at hset
  simp only [hrecord, Record.backing?, Engine.updateSlots, Action.attempt, Record.slots] at hset
  have hassign : slots.assign name .undefined false = .error (.constantAssigned name) := by
    cases hassign : slots.assign name .undefined false with
    | ok slots' =>
        rw [hassign] at hset
        cases hset
    | error e =>
        rw [hassign] at hset
        cases hset
        rfl
  obtain ⟨b, hb, hvalue, hmutable, hstrict⟩ := Bindings.assign_eq_constantAssigned hassign
  have hdelete := h.delete
  rw [Engine.deleteBinding_of_module hrecord, Bindings.delete, hb] at hdelete
  have hdeletable : b.deletable = false := by
    cases hdeletable : b.deletable with
    | true =>
        simp only [hdeletable, if_true] at hdelete
        cases hdelete
    | false => rfl
  exact ⟨b, hb, hvalue, hmutable, hdeletable, by simpa using hstrict⟩

end World

/-- The operations on a module environment that change its record. -/
inductive ModuleOperation where
  | createMutable (name : String) (deletable : Bool)
  | createImmutable (name : String) (strict : Bool)
  | init (name : String) (v : Value)
  | set (name : String) (v : Value) (strict : Bool)
  | delete (name : String)
  | addImport (name : String) (target : Import)

namespace ModuleOperation

/-- Carries out an operation on an environment. -/
def run (E : Engine σ) (s : ScopeId) : ModuleOperation → Action σ Unit
  | createMutable name deletable => Engine.createMutable s name deletable
  | createImmutable name strict => Engine.createImmutable s name strict
  | init name v => E.initBinding s name v
  | set name v strict => E.setBinding s name v strict
  | delete name => do
      let _ ← Engine.deleteBinding s name
  | addImport name target => Engine.createImport s target.source name target.exported

/-- The world after operations in turn, however each of them ends. -/
def runAll (E : Engine σ) (s : ScopeId) (operations : List ModuleOperation) (w : World σ) :
    World σ :=
  operations.foldl (fun w operation => (operation.run E s).after w) w

/-- What a name is imported from after an operation, if it was imported from `i` before. -/
def importOf (name : String) (i : Import) : ModuleOperation → Import
  | addImport other target => if other = name then target else i
  | _ => i

/-- What a name is imported from after operations in turn, if it was imported from `i` before: what
the last import of the name says. -/
def lastImport (name : String) (i : Import) (operations : List ModuleOperation) : Import :=
  operations.foldl (importOf name) i

variable {E : Engine σ} {s : ScopeId} {w : World σ} {slots : Bindings}
  {imports : Table String Import} {name : String} {i : Import}

/-- A record of a module can be replaced. -/
theorem record_setRecord (hrecord : (w.scope s).record = .module slots imports)
    (record : Record) : ((w.setRecord s record).scope s).record = record :=
  World.record_setRecord (World.index_lt_of_record (by rw [hrecord]; nofun)) record

/-- Importing a name into a module environment works. -/
theorem createImport_eq (hrecord : (w.scope s).record = .module slots imports)
    (source : ModuleId) (name exported : String) :
    ∃ w' slots', Engine.createImport s source name exported w = .ok () w' ∧
      (w'.scope s).record = .module slots' (imports.insert name ⟨source, exported⟩) ∧
      ∀ other, slots'.get? other =
        if name = other then
          some { (slots.get? name).getD ⟨none, false, false, true⟩ with value := some .undefined }
        else slots.get? other := by
  obtain ⟨slots', hadd, hslots'⟩ := Record.addImport_module slots imports name ⟨source, exported⟩
  refine ⟨_, slots', ?_, record_setRecord hrecord _, hslots'⟩
  apply Action.attempt_ok
  rw [hrecord, hadd]
  rfl

/-- Updating the slots of a module environment leaves its imports alone. -/
theorem updateSlots_stillImports (hrecord : (w.scope s).record = .module slots imports)
    (himport : imports.get? name = some i) {f : Bindings → Except Error Bindings}
    (hf : ∀ slots', f slots = .ok slots' → slots.Pinned name → slots'.Pinned name) :
    (((Engine.updateSlots s f).after w).scope s).record.StillImports slots name i := by
  cases hslots : f slots with
  | error e =>
      have hrun : Engine.updateSlots s f w = .error (.thrown e) w := by
        simp only [Engine.updateSlots_eq, hrecord, Record.slots, hslots]
      rw [Action.after_of_error hrun, hrecord]
      exact ⟨slots, imports, rfl, himport, id⟩
  | ok slots' =>
      have hrun : Engine.updateSlots s f w = .ok () (w.setRecord s (.module slots' imports)) := by
        simp only [Engine.updateSlots_eq, hrecord, Record.slots, hslots]
        rfl
      rw [Action.after_of_ok hrun, record_setRecord hrecord]
      exact ⟨slots', imports, rfl, himport, hf slots' hslots⟩

theorem createMutable_eq (hrecord : (w.scope s).record = .module slots imports) (name : String)
    (deletable : Bool) : Engine.createMutable s name deletable w =
      Engine.updateSlots s (fun slots => .ok (slots.create name true deletable false)) w := by
  rw [Engine.createMutable, Action.bind_ok (Action.get_apply w)]
  simp only [hrecord]

theorem createImmutable_eq (hrecord : (w.scope s).record = .module slots imports) (name : String)
    (strict : Bool) : Engine.createImmutable s name strict w =
      Engine.updateSlots s (fun slots => .ok (slots.create name false false strict)) w := by
  rw [Engine.createImmutable, Action.bind_ok (Action.get_apply w)]
  simp only [hrecord]

theorem initBinding_eq (E : Engine σ) (hrecord : (w.scope s).record = .module slots imports)
    (name : String) (v : Value) :
    E.initBinding s name v w = Engine.updateSlots s (·.init name v) w := by
  rw [Engine.initBinding, Action.bind_ok (Action.get_apply w)]
  simp only [hrecord, Record.backing?]

theorem setBinding_eq (E : Engine σ) (hrecord : (w.scope s).record = .module slots imports)
    (name : String) (v : Value) (strict : Bool) :
    E.setBinding s name v strict w = Engine.updateSlots s (·.assign name v strict) w := by
  rw [Engine.setBinding, Action.bind_ok (Action.get_apply w)]
  simp only [hrecord, Record.backing?]

/-- An operation keeps an import, or imports its name from somewhere else. -/
theorem run_stillImports (E : Engine σ) (hrecord : (w.scope s).record = .module slots imports)
    (himport : imports.get? name = some i) (operation : ModuleOperation) :
    (((operation.run E s).after w).scope s).record.StillImports slots name
      (operation.importOf name i) := by
  cases operation with
  | createMutable other deletable =>
      rw [run, Action.after_congr (createMutable_eq hrecord other deletable)]
      apply updateSlots_stillImports hrecord himport
      rintro _ ⟨⟩ hpinned
      exact hpinned.create ..
  | createImmutable other strict =>
      rw [run, Action.after_congr (createImmutable_eq hrecord other strict)]
      apply updateSlots_stillImports hrecord himport
      rintro _ ⟨⟩ hpinned
      exact hpinned.create ..
  | init other v =>
      rw [run, Action.after_congr (initBinding_eq E hrecord other v)]
      exact updateSlots_stillImports hrecord himport fun _ hinit hpinned => hpinned.init hinit
  | set other v strict =>
      rw [run, Action.after_congr (setBinding_eq E hrecord other v strict)]
      exact updateSlots_stillImports hrecord himport fun _ hassign hpinned => hpinned.assign hassign
  | delete other =>
      have hdelete := Engine.deleteBinding_of_module hrecord other
      cases hslot : slots.delete other with
      | none =>
          rw [hslot] at hdelete
          have hrun : run E s (.delete other) w = .ok () w := Action.bind_ok hdelete
          rw [Action.after_of_ok hrun, hrecord]
          exact ⟨slots, imports, rfl, himport, id⟩
      | some slots' =>
          rw [hslot] at hdelete
          have hrun : run E s (.delete other) w = .ok () (w.setRecord s (.module slots' imports)) :=
            Action.bind_ok hdelete
          rw [Action.after_of_ok hrun, record_setRecord hrecord]
          exact ⟨slots', imports, rfl, himport, fun hpinned => hpinned.delete hslot⟩
  | addImport other target =>
      obtain ⟨w', slots', hrun, hrecord', hslots'⟩ :=
        createImport_eq hrecord target.source other target.exported
      rw [run, Action.after_of_ok hrun]
      refine ⟨slots', _, hrecord', ?_, Record.pinned_addImport hslots'⟩
      rw [Table.get?_insert, himport, importOf]
      split <;> rfl

/-- Operations in turn keep an import, from wherever its name was imported last. -/
theorem runAll_stillImports (E : Engine σ) (hrecord : (w.scope s).record = .module slots imports)
    (himport : imports.get? name = some i) (operations : List ModuleOperation) :
    ((runAll E s operations w).scope s).record.StillImports slots name
      (lastImport name i operations) := by
  induction operations generalizing w slots imports i with
  | nil => exact ⟨slots, imports, hrecord, himport, id⟩
  | cons operation rest ih =>
      obtain ⟨slots₁, imports₁, hrecord₁, himport₁, hpinned₁⟩ :=
        run_stillImports E hrecord himport operation
      obtain ⟨slots₂, imports₂, hrecord₂, himport₂, hpinned₂⟩ := ih hrecord₁ himport₁
      exact ⟨slots₂, imports₂, hrecord₂, himport₂, hpinned₂ ∘ hpinned₁⟩

end ModuleOperation

/-- **An imported name is a constant exactly if its slot is.** Importing a name into a module
environment always works, and whatever is done to the environment from then on, the name is read
from where it was imported last. That it is there, cannot be deleted and refuses every assignment
for good, too, is the case exactly if the name had no slot before or a fixed one: a slot that can
be deleted or assigned to stays what it was. -/
theorem Engine.createImport_holds_iff [Embedding σ] {w : World σ} {s : ScopeId} {slots : Bindings}
    {imports : Table String Import} (hrecord : (w.scope s).record = .module slots imports)
    (source : ModuleId) (name exported : String) :
    (Error.constantAssigned name).kind = .type ∧
    ∃ w', Engine.createImport s source name exported w = .ok () w' ∧
      (∀ (E E' : Engine σ) (operations : List ModuleOperation) (strict : Bool),
        E'.getBinding s name strict (ModuleOperation.runAll E s operations w') =
          E'.readImport name (ModuleOperation.lastImport name ⟨source, exported⟩ operations)
            (ModuleOperation.runAll E s operations w')) ∧
      ((∀ b, slots.get? name = some b → b.IsFixed) ↔
        ∀ (E : Engine σ) (operations : List ModuleOperation),
          (ModuleOperation.runAll E s operations w').HoldsImport s name
            (ModuleOperation.lastImport name ⟨source, exported⟩ operations)) := by
  obtain ⟨w', slots', hrun, hrecord', hslots'⟩ :=
    ModuleOperation.createImport_eq hrecord source name exported
  have hpinned : slots'.Pinned name ↔ ∀ b, slots.get? name = some b → b.IsFixed :=
    Record.pinned_addImport_iff ((hslots' name).trans (if_pos rfl))
  have himport : (imports.insert name ⟨source, exported⟩).get? name = some ⟨source, exported⟩ := by
    rw [Table.get?_insert, if_pos rfl]
  refine ⟨rfl, w', hrun, fun E E' operations strict => ?_, ?_⟩
  · obtain ⟨_, _, hafter, hlast, -⟩ :=
      ModuleOperation.runAll_stillImports E hrecord' himport operations
    apply Engine.getBinding_of_import
    rw [hafter]
    exact hlast
  · rw [← hpinned]
    constructor
    · intro hpin E operations
      obtain ⟨_, _, hafter, hlast, hkeeps⟩ :=
        ModuleOperation.runAll_stillImports E hrecord' himport operations
      exact World.holdsImport_of_pinned hafter hlast (hkeeps hpin)
    · intro hholds
      exact (hholds .exhausted []).pinned hrecord'

/-- An import of a name that a module environment does not know yet. -/
theorem Engine.createImport_holds_fresh :
    let w : World Unit :=
      { World.empty none (.below 0) () with scopes := #[⟨.module .empty .empty, none⟩] }
    ∃ w', Engine.createImport ⟨0⟩ ⟨3⟩ "x" "y" w = .ok () w' ∧
      ∀ (E : Engine Unit) (operations : List ModuleOperation),
        (ModuleOperation.runAll E ⟨0⟩ operations w').HoldsImport ⟨0⟩ "x"
          (ModuleOperation.lastImport "x" ⟨⟨3⟩, "y"⟩ operations) := by
  intro w
  obtain ⟨-, w', hrun, -, hholds⟩ :=
    Engine.createImport_holds_iff (show (w.scope ⟨0⟩).record = .module .empty .empty from rfl)
      ⟨3⟩ "x" "y"
  have hfree : ∀ b, (Table.empty : Bindings).get? "x" = some b → b.IsFixed := by
    rintro b ⟨⟩
  exact ⟨w', hrun, hholds.1 hfree⟩

/-- An import of a name with a variable that can be deleted: the name is read from its module, but
assignments to it succeed, and once it is deleted the environment does not have it any more. -/
theorem Engine.createImport_over_variable :
    let slots : Bindings := Table.empty.insert "x" ⟨some .null, true, true, false⟩
    let w : World Unit :=
      { World.empty none (.below 0) () with scopes := #[⟨.module slots .empty, none⟩] }
    let w' := (Engine.createImport ⟨0⟩ ⟨3⟩ "x" "y").after w
    let deleted := (Engine.deleteBinding ⟨0⟩ "x").after w'
    Engine.createImport ⟨0⟩ ⟨3⟩ "x" "y" w = .ok () w' ∧
      (∀ (E : Engine Unit) (strict : Bool), ∃ w'', w'' ≠ w' ∧
        E.setBinding ⟨0⟩ "x" (.boolean true) strict w' = .ok () w'') ∧
      Engine.deleteBinding ⟨0⟩ "x" w' = .ok true deleted ∧
      ∀ E : Engine Unit, E.hasBinding ⟨0⟩ "x" deleted = .ok false deleted ∧
        E.getBinding ⟨0⟩ "x" true deleted = E.readImport "x" ⟨⟨3⟩, "y"⟩ deleted := by
  intro slots w w' deleted
  refine ⟨rfl, fun E strict => ⟨_, ?_, rfl⟩, rfl, fun E => ⟨rfl, rfl⟩⟩
  intro heq
  have hslot := congrArg (fun w : World Unit => (w.scope ⟨0⟩).record) heq
  revert hslot
  decide

end EcmaCore
