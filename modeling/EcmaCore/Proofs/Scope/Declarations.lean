import EcmaCore.Proofs.Scope.Assign
import EcmaCore.Proofs.Scope.This

/-!
# Declarations in a global environment

A global environment is asked whether a variable or function can be declared, and then it
is told to declare it: the property of the global object is defined, the value is assigned
to it, and the name is entered into a list. The questions and the declarations look at the
property on their own. Here each declaration is one equation: the definition is one
question to the object and one insertion, and the assignment after it finds the value that
it is to write and changes nothing. So a declaration runs no user code, and one that fails
has failed before anything happened.

## Main results

* `Engine.setProperty_of_data`: assigning the value that a data property has.
* `Engine.createGlobalVar_eq`, `Engine.createGlobalFunction_eq`: what declarations do.
* `Object.admits_functionUpdate`: what can be declared as a function is admitted.
* `World.DeclaresOnly`: the frame of a declaration.
* `Engine.global_declarations`: the checks are sound, and declarations do no more.
-/

namespace EcmaCore

variable {σ : Type}

/-! ## Lists of declared names -/

namespace Record

/-- The names that a record lists as declared variables and functions. -/
def varNames : Record → List String
  | .global _ info => info.varNames
  | _ => []

/-- What becomes of a global record: it stays one for the same objects, and lists no name twice
unless it did before. -/
structure GlobalKeeps (r r' : Record) : Prop where
  backing : ∀ slots info, r = .global slots info →
    ∃ slots' info', r' = .global slots' info' ∧ info'.object = info.object ∧ info'.this = info.this
  nodup : r.varNames.Nodup → r'.varNames.Nodup

theorem GlobalKeeps.refl (r : Record) : r.GlobalKeeps r :=
  ⟨fun slots info h => ⟨slots, info, h, rfl, rfl⟩, id⟩

theorem GlobalKeeps.trans {r r' r'' : Record} (h : r.GlobalKeeps r') (h' : r'.GlobalKeeps r'') :
    r.GlobalKeeps r'' where
  backing slots info heq := by
    obtain ⟨slots', info', heq', hobject, hthis⟩ := h.backing slots info heq
    obtain ⟨slots'', info'', heq'', hobject', hthis'⟩ := h'.backing slots' info' heq'
    exact ⟨slots'', info'', heq'', hobject'.trans hobject, hthis'.trans hthis⟩
  nodup := h'.nodup ∘ h.nodup

theorem globalKeeps_withSlots (r : Record) (slots : Bindings) :
    r.GlobalKeeps (r.withSlots slots) := by
  cases r with
  | global slots' info =>
      refine ⟨?_, id⟩
      rintro _ _ ⟨⟩
      exact ⟨slots, info, rfl, rfl, rfl⟩
  | _ => exact ⟨nofun, id⟩

/-- A name that is added to the list of a global record is on it, once. -/
theorem addVarName_global (slots : Bindings) (info : GlobalScope) (name : String) :
    ∃ names, (global slots info).addVarName name = .global slots { info with varNames := names } ∧
      (∀ other, other ∈ names ↔ other = name ∨ other ∈ info.varNames) ∧
      (info.varNames.Nodup → names.Nodup) := by
  unfold addVarName
  by_cases hmem : name ∈ info.varNames
  · refine ⟨info.varNames, if_pos hmem, fun other => ?_, id⟩
    constructor
    · exact .inr
    · rintro (rfl | h)
      · exact hmem
      · exact h
  · refine ⟨info.varNames ++ [name], if_neg hmem, fun other => ?_, fun hnodup => ?_⟩
    · rw [List.mem_append, List.mem_singleton, or_comm]
    · refine List.nodup_append.2 ⟨hnodup, List.nodup_singleton name, ?_⟩
      rintro other hother _ hname rfl
      rw [List.mem_singleton] at hname
      exact hmem (hname ▸ hother)

/-- Every step of a global record leaves it a global record that lists no name twice. -/
theorem Step.globalKeeps {r r' : Record} (h : r.Step r') : r.GlobalKeeps r' := by
  cases h with
  | create | init | assign | delete => exact r.globalKeeps_withSlots _
  | bindThis h =>
      obtain ⟨slots, info, rfl, -, -, rfl⟩ := bindThis_eq_ok_iff.1 h
      exact ⟨nofun, id⟩
  | addVarName name =>
      cases r with
      | global slots info =>
          obtain ⟨names, heq, -, hnodup⟩ := addVarName_global slots info name
          rw [heq]
          refine ⟨?_, hnodup⟩
          rintro _ _ ⟨⟩
          exact ⟨_, _, rfl, rfl, rfl⟩
      | _ => exact .refl _
  | removeVarName name =>
      cases r with
      | global slots info =>
          refine ⟨?_, fun hnodup => List.Pairwise.filter _ hnodup⟩
          rintro _ _ ⟨⟩
          exact ⟨_, _, rfl, rfl, rfl⟩
      | _ => exact .refl _
  | @addImport name target _ h =>
      cases r with
      | module slots imports =>
          obtain ⟨slots', heq, -⟩ := addImport_module slots imports name target
          cases heq.symm.trans h
          exact ⟨nofun, id⟩
      | _ =>
          cases h
          exact .refl _

end Record

/-! ## Defining and then assigning -/

namespace Engine

variable {w : World σ} {o : ObjectId} {key : PropertyKey}

/-- Defining a property is one question to the object and one insertion. -/
theorem defineOrFail_eq (o : ObjectId) (key : PropertyKey) (update : PropertyUpdate) (w : World σ) :
    defineOrFail o key update w =
      if (w.object o).admits key update then
        .ok () (w.putOwn o key (update.applyTo (w.own o key)))
      else .error (.thrown (.definitionRejected key.display)) w := by
  rw [defineOrFail, Action.bind_ok (Action.change_apply _ w), World.define_eq_putOwn]
  by_cases hadmits : (w.object o).admits key update = true
  · rw [if_pos hadmits, if_pos hadmits]
    rfl
  · rw [if_neg hadmits, if_neg hadmits]
    rfl

/-- Assigning to a data property the value that it has changes nothing and runs no code; it takes
effect if the property is writable. -/
theorem setProperty_of_data (E : Engine σ) {v : Value} {writable enumerable configurable : Bool}
    (h : w.own o key = some (.data v writable enumerable configurable)) :
    E.setProperty o key v false w = .ok writable w := by
  have hlookup := World.lookup_of_own h
  have hquiet : w.ReadsQuietly o key := by
    rw [World.ReadsQuietly, hlookup]
    rintro _ ⟨⟩
    rfl
  rw [setProperty_eq, setFor_eq E hquiet]
  dsimp only
  rw [World.inheritsWritable, hlookup, World.acceptsWrite, World.written, h]
  cases writable with
  | false => rfl
  | true =>
      show EStateM.Result.ok true (w.putOwn o key (.data v true enumerable configurable)) = _
      rw [World.putOwn_of_own h]

end Engine

/-! ## What can be declared -/

/-- The redefinition by which a function is declared: all of an ordinary property, or only its
value where the property cannot be redefined. -/
def PropertyUpdate.ofFunction (current : Option Property) (f : Value) (deletable : Bool) :
    PropertyUpdate :=
  if (current.map Property.configurable).getD true then .full (.data f true true deletable)
  else .valueOnly f

/-- The definition of a function leaves a data property with the function as its value. -/
theorem PropertyUpdate.applyTo_ofFunction (current : Option Property) (f : Value)
    (deletable : Bool) :
    ∃ writable enumerable configurable, (ofFunction current f deletable).applyTo current =
      .data f writable enumerable configurable := by
  unfold ofFunction
  split <;> exact ⟨_, _, _, rfl⟩

/-- Whether a function can be declared as a property of an object. -/
def Object.takesFunction (x : Object) (key : PropertyKey) : Bool :=
  match x.own key with
  | none => x.extensible
  | some p =>
      p.configurable ||
        (match p with
          | .data _ true true _ => true
          | _ => false)

/-- What can be declared as a function is admitted, and becomes a writable and enumerable
property. -/
theorem Object.admits_ofFunction {x : Object} {key : PropertyKey}
    (h : x.takesFunction key = true) (f : Value) (deletable : Bool) :
    x.admits key (.ofFunction (x.own key) f deletable) = true ∧
      (PropertyUpdate.ofFunction (x.own key) f deletable).applyTo (x.own key) =
        .data f true true ((x.own key).elim deletable fun p => p.configurable && deletable) := by
  unfold takesFunction at h
  unfold admits
  cases hown : x.own key with
  | none =>
      rw [hown] at h
      exact ⟨h, rfl⟩
  | some p =>
      rw [hown] at h
      cases p with
      | accessor getter setter enumerable configurable =>
          cases configurable with
          | true => exact ⟨rfl, rfl⟩
          | false => cases h
      | data v writable enumerable configurable =>
          cases configurable with
          | true => exact ⟨rfl, rfl⟩
          | false =>
              cases writable <;> cases enumerable <;> cases h
              exact ⟨PropertyUpdate.allowedOn_valueOnly f v true false, rfl⟩

/-! ## Declaring -/

namespace World

variable {w : World σ} {s : ScopeId} {slots : Bindings} {info : GlobalScope} {name : String}

theorem canDeclareFunction_eq (h : (w.scope s).record = .global slots info) :
    w.canDeclareFunction s name = (w.object info.object).takesFunction name := by
  rw [canDeclareFunction, global?_of_record h]
  rfl

theorem canDeclareVar_eq (h : (w.scope s).record = .global slots info) :
    w.canDeclareVar s name =
      (w.hasOwn info.object name || (w.object info.object).extensible) := by
  rw [canDeclareVar, global?_of_record h]
  rfl

/-- What declaring a name may change: the property of the global object, and whether this name is
on the list of the global environment. -/
structure DeclaresOnly (w : World σ) (s : ScopeId) (object : ObjectId) (name : String)
    (w' : World σ) : Prop where
  property : w.DiffersAtProperty object name { w' with scopes := w.scopes }
  size : w'.scopes.size = w.scopes.size
  scope : ∀ t, t ≠ s → w'.scope t = w.scope t
  outer : (w'.scope s).outer = (w.scope s).outer
  record : ∀ slots info, (w.scope s).record = .global slots info →
    ∃ names, (w'.scope s).record = .global slots { info with varNames := names } ∧
      ∀ other, other ≠ name → (other ∈ names ↔ other ∈ info.varNames)

theorem DeclaresOnly.refl (w : World σ) (s : ScopeId) (object : ObjectId) (name : String) :
    w.DeclaresOnly s object name w where
  property := .refl w object name
  size := rfl
  scope _ _ := rfl
  outer := rfl
  record _ info h := ⟨info.varNames, h, fun _ _ => .rfl⟩

/-- Entering a name into the list after a change of one property. -/
theorem declaresOnly_recordVarName {u : World σ} {object : ObjectId}
    (h : w.DiffersAtProperty object name u) (s : ScopeId) :
    w.DeclaresOnly s object name (u.recordVarName s name) := by
  have hscopes : u.scopes = w.scopes := by rw [h.rest]
  have hscope (t : ScopeId) : u.scope t = w.scope t := by rw [scope, scope, hscopes]
  have hu : ({ u.recordVarName s name with scopes := w.scopes } : World σ) = u := by
    rw [← hscopes]
    rfl
  refine ⟨by rw [hu]; exact h, ?_, fun t ht => ?_, ?_, fun slots info hrecord => ?_⟩
  · rw [recordVarName, size_setRecord, hscopes]
  · rw [recordVarName, scope_setRecord, if_neg (fun heq => ht heq.1.symm), hscope]
  · rw [recordVarName, outer_setRecord, hscope]
  · rw [← hscope] at hrecord
    obtain ⟨names, heq, hmem, -⟩ := Record.addVarName_global slots info name
    refine ⟨names, ?_, fun other hother => ?_⟩
    · rw [recordVarName, record_setRecord (index_lt_of_global hrecord), hrecord, heq]
    · rw [hmem]
      exact or_iff_right hother

/-- A name that was entered into the list of a global environment is a declared one. -/
theorem hasVarDeclaration_recordVarName (h : (w.scope s).record = .global slots info) :
    (w.recordVarName s name).hasVarDeclaration s name = true := by
  obtain ⟨names, heq, hmem, -⟩ := Record.addVarName_global slots info name
  have hrecord : ((w.recordVarName s name).scope s).record =
      .global slots { info with varNames := names } := by
    rw [recordVarName, record_setRecord (index_lt_of_global h), h, heq]
  rw [hasVarDeclaration, global?_of_record hrecord]
  exact decide_eq_true ((hmem name).2 (.inl rfl))

end World

namespace Engine

variable {w : World σ} {s : ScopeId} {slots : Bindings} {info : GlobalScope}

/-- Declaring a variable adds its property if it is missing and can be added, and enters the
name. -/
theorem createGlobalVar_eq (E : Engine σ) (h : (w.scope s).record = .global slots info)
    (hobject : info.object.index < w.objects.size) (name : String) (deletable : Bool) :
    E.createGlobalVar s name deletable w =
      .ok ()
        ((if !w.hasOwn info.object name && (w.object info.object).extensible then
            w.putOwn info.object name (.data .undefined true true deletable)
          else w).recordVarName s name) := by
  rw [createGlobalVar, Action.bind_ok (Action.get_apply w), World.global?_of_record h]
  dsimp only
  by_cases hadds : (!w.hasOwn info.object name && (w.object info.object).extensible) = true
  · rw [if_pos hadds, if_pos hadds]
    rw [Bool.and_eq_true, Bool.not_eq_true', World.hasOwn, Option.isSome_eq_false_iff,
      Option.isNone_iff_eq_none] at hadds
    obtain ⟨hown, hextensible⟩ := hadds
    have hadmits : (w.object info.object).admits name (backingProperty deletable) = true := by
      rw [Object.admits, show (w.object info.object).own name = none from hown]
      exact hextensible
    have hdefine := defineOrFail_eq info.object name (backingProperty deletable) w
    rw [if_pos hadmits, hown] at hdefine
    have hset := E.setProperty_of_data (World.own_putOwn_self hobject name
      (.data .undefined true true deletable))
    have hbacking := E.backingSet_eq info.object name .undefined false
      (w.putOwn info.object name (.data .undefined true true deletable))
    rw [Bool.and_false, if_neg Bool.false_ne_true, hset] at hbacking
    rw [Action.bind_ok hdefine]
    exact Action.bind_ok hbacking
  · rw [if_neg hadds, if_neg hadds]
    rfl

/-- Declaring a function is one question to the global object, one insertion, and the entry of the
name. -/
theorem createGlobalFunction_eq (E : Engine σ) (h : (w.scope s).record = .global slots info)
    (hobject : info.object.index < w.objects.size) (name : String) (f : Value)
    (deletable : Bool) :
    let update := PropertyUpdate.ofFunction (w.own info.object name) f deletable
    E.createGlobalFunction s name f deletable w =
      if (w.object info.object).admits name update then
        .ok () ((w.putOwn info.object name
          (update.applyTo (w.own info.object name))).recordVarName s name)
      else .error (.thrown (.definitionRejected (PropertyKey.text name).display)) w := by
  intro update
  rw [createGlobalFunction, Action.bind_ok (Action.get_apply w), World.global?_of_record h]
  show (defineOrFail info.object name update >>= fun _ => _) w = _
  have hdefine := defineOrFail_eq info.object name update w
  by_cases hadmits : (w.object info.object).admits name update = true
  · rw [if_pos hadmits] at hdefine ⊢
    obtain ⟨_, _, _, hdata⟩ :=
      PropertyUpdate.applyTo_ofFunction (w.own info.object name) f deletable
    have hown := World.own_putOwn_self hobject name (update.applyTo (w.own info.object name))
    rw [Action.bind_ok hdefine, Action.bind_ok (E.setProperty_of_data (hown.trans (by rw [hdata])))]
    rfl
  · rw [if_neg hadmits] at hdefine ⊢
    exact Action.bind_error hdefine

/-- A declaration that fails has failed before anything happened. -/
theorem eq_of_createGlobal_error {E : Engine σ} (h : (w.scope s).record = .global slots info)
    (hobject : info.object.index < w.objects.size) {name : String} {f : Value} {deletable : Bool}
    {failure : Failure} {w' : World σ}
    (hrun : E.createGlobalFunction s name f deletable w = .error failure w' ∨
      E.createGlobalVar s name deletable w = .error failure w') : w' = w := by
  rcases hrun with hrun | hrun
  · rw [E.createGlobalFunction_eq h hobject] at hrun
    split at hrun
    · cases hrun
    · cases hrun
      rfl
  · rw [E.createGlobalVar_eq h hobject] at hrun
    cases hrun

theorem declaresOnly_createGlobalFunction (E : Engine σ)
    (h : (w.scope s).record = .global slots info) (hobject : info.object.index < w.objects.size)
    (name : String) (f : Value) (deletable : Bool) :
    w.DeclaresOnly s info.object name ((E.createGlobalFunction s name f deletable).after w) := by
  rw [Action.after, E.createGlobalFunction_eq h hobject]
  split
  · next hrun =>
    split at hrun <;> cases hrun
    exact World.declaresOnly_recordVarName (w.differsAtProperty_putOwn _ _ _) s
  · next hrun =>
    split at hrun <;> cases hrun
    exact .refl w s _ _

theorem declaresOnly_createGlobalVar (E : Engine σ)
    (h : (w.scope s).record = .global slots info) (hobject : info.object.index < w.objects.size)
    (name : String) (deletable : Bool) :
    w.DeclaresOnly s info.object name ((E.createGlobalVar s name deletable).after w) := by
  rw [Action.after_of_ok (E.createGlobalVar_eq h hobject name deletable)]
  refine World.declaresOnly_recordVarName ?_ s
  split
  · exact w.differsAtProperty_putOwn _ _ _
  · exact .refl w _ _

end Engine

/-! ## Global environments from their creation on -/

/-- An environment was created as the global one of an object, alone or with a realm, in this world
or an earlier one. -/
def World.OpenedGlobal [Embedding σ] (w : World σ) (s : ScopeId) (object : ObjectId) : Prop :=
  ∃ before opened : World σ, opened.Reaches w ∧
    ((∃ this, Engine.createScope (.global object this) before = .ok s opened) ∨
      s = before.addRealm.1.scope ∧ object = before.addRealm.1.global ∧
        opened = before.addRealm.2)

namespace World

variable [Embedding σ] {w w' : World σ} {s : ScopeId} {object : ObjectId}

omit [Embedding σ] in
/-- A new environment has the record that it was created with. -/
theorem record_addScope_self (w : World σ) (record : Record) (outer : Option ScopeId) :
    ((w.addScope record outer).2.scope (w.addScope record outer).1).record = record := by
  rw [scope_addScope]
  exact congrArg Scope.record (if_pos rfl)

theorem OpenedGlobal.reaches (h : w.OpenedGlobal s object) (hlater : w.Reaches w') :
    w'.OpenedGlobal s object := by
  obtain ⟨before, opened, hreaches, hopened⟩ := h
  exact ⟨before, opened, hreaches.trans hlater, hopened⟩

/-- What was created as a global environment is one, and lists no name twice. -/
theorem OpenedGlobal.record (h : w.OpenedGlobal s object) :
    ∃ slots info, (w.scope s).record = .global slots info ∧ info.object = object ∧
      info.varNames.Nodup := by
  obtain ⟨before, opened, hreaches, hopened⟩ := h
  have hnew : ∃ this, (opened.scope s).record = .global .empty ⟨object, this, []⟩ := by
    rcases hopened with ⟨this, hcreate⟩ | ⟨rfl, rfl, rfl⟩
    · rw [Engine.createScope, Engine.newScope, Action.change_apply,
        EStateM.Result.ok.injEq] at hcreate
      obtain ⟨rfl, rfl⟩ := hcreate
      exact ⟨this, record_addScope_self _ _ _⟩
    · exact ⟨before.addRealm.1.global, record_addScope_self _ _ _⟩
  obtain ⟨this, hnew⟩ := hnew
  have hkeep := (recordsKeep_guarantee Record.GlobalKeeps.refl Record.GlobalKeeps.trans
    (fun _ _ => Record.Step.globalKeeps) .all).of_reaches hreaches
  have hkeeps := hkeep.record s (index_lt_of_global hnew)
  obtain ⟨slots, info, hrecord, hobject, -⟩ := hkeeps.backing _ _ hnew
  have hnodup := hkeeps.nodup (by rw [hnew]; exact List.nodup_nil)
  rw [hrecord] at hnodup
  exact ⟨slots, info, hrecord, hobject, hnodup⟩

end World

/-- **The checks of global declarations are sound.** Take a global environment whose global object
exists. If a function of a name can be declared, then declaring it ends well whatever user code
there is, hence without running any; then the global object has the function as a writable and
enumerable data property of its own, which is configurable if it was not there or configurable and
is to be deletable, and the name is a declared one. If a variable can be declared, then declaring it
ends well without running user code; then the global object has the property that it had, or else a
new one with the value undefined, and the name is a declared one. A declaration that fails changes
nothing, and any declaration changes the property and the entry of this name at most. From the
creation of a global environment on, whatever is run, it lists no name twice. -/
theorem Engine.global_declarations [Embedding σ] {w : World σ} {s : ScopeId} {slots : Bindings}
    {info : GlobalScope} (h : (w.scope s).record = .global slots info)
    (hobject : info.object.index < w.objects.size) (name : String) (deletable : Bool) :
    (∀ f, w.canDeclareFunction s name = true →
      ∃ w', (∀ E : Engine σ, E.createGlobalFunction s name f deletable w = .ok () w') ∧
        w'.own info.object name = some (.data f true true
          ((w.own info.object name).elim deletable fun p => p.configurable && deletable)) ∧
        w'.hasVarDeclaration s name = true) ∧
    (w.canDeclareVar s name = true →
      ∃ w', (∀ E : Engine σ, E.createGlobalVar s name deletable w = .ok () w') ∧
        w'.own info.object name = some
          ((w.own info.object name).getD (.data .undefined true true deletable)) ∧
        w'.hasVarDeclaration s name = true) ∧
    (∀ (E : Engine σ) f failure w',
      E.createGlobalFunction s name f deletable w = .error failure w' ∨
        E.createGlobalVar s name deletable w = .error failure w' → w' = w) ∧
    (∀ (E : Engine σ) f,
      w.DeclaresOnly s info.object name ((E.createGlobalFunction s name f deletable).after w) ∧
      w.DeclaresOnly s info.object name ((E.createGlobalVar s name deletable).after w)) ∧
    ∀ (u : World σ) (t : ScopeId) (object : ObjectId), u.OpenedGlobal t object →
      (∃ slots info, (u.scope t).record = .global slots info ∧ info.object = object ∧
        info.varNames.Nodup) ∧
      ∀ u', u.Reaches u' → u'.OpenedGlobal t object := by
  have hscope (p : Property) :
      ((w.putOwn info.object name p).scope s).record = .global slots info := h
  refine ⟨fun f hcan => ?_, fun hcan => ?_,
    fun E f failure w' => eq_of_createGlobal_error h hobject,
    fun E f => ⟨E.declaresOnly_createGlobalFunction h hobject name f deletable,
      E.declaresOnly_createGlobalVar h hobject name deletable⟩,
    fun u t object hopened => ⟨hopened.record, fun u' => hopened.reaches⟩⟩
  · rw [World.canDeclareFunction_eq h] at hcan
    obtain ⟨hadmits, hproperty⟩ := Object.admits_ofFunction hcan f deletable
    refine ⟨(w.putOwn info.object name _).recordVarName s name, fun E =>
      (E.createGlobalFunction_eq h hobject name f deletable).trans (if_pos hadmits), ?_,
      World.hasVarDeclaration_recordVarName (hscope _)⟩
    exact (World.own_putOwn_self hobject name _).trans (congrArg some hproperty)
  · rw [World.canDeclareVar_eq h] at hcan
    refine ⟨_, fun E => E.createGlobalVar_eq h hobject name deletable, ?_, ?_⟩
    · -- the property is added exactly if it is missing, which the check then admits
      show World.own (if _ then _ else _) info.object name = _
      cases hown : w.own info.object name with
      | none =>
          rw [World.hasOwn, hown] at hcan ⊢
          rw [if_pos (by simpa using hcan)]
          exact World.own_putOwn_self hobject name _
      | some p =>
          rw [World.hasOwn, hown, if_neg (by simp)]
          exact hown
    · split
      · exact World.hasVarDeclaration_recordVarName (hscope _)
      · exact World.hasVarDeclaration_recordVarName h

/-- A global object that is not extensible and has a read-only property that is enumerable but not
configurable: a variable of its name can be declared, and the property stays what it is. A function
can be declared in place of a writable one, which stays not configurable. -/
theorem Engine.global_declarations_frozen :
    let w : World Unit :=
      { World.empty none (.below 0) () with
        objects := #[(((Object.new none .plain).put "x" (.data .null false true false)).put "y"
          (.data .null true true false)).preventExtensions]
        scopes := #[⟨.global .empty ⟨⟨0⟩, ⟨0⟩, []⟩, none⟩] }
    (∃ w', (∀ E : Engine Unit, E.createGlobalVar ⟨0⟩ "x" true w = .ok () w') ∧
      w'.own ⟨0⟩ "x" = some (.data .null false true false) ∧
      w'.hasVarDeclaration ⟨0⟩ "x" = true) ∧
    ∃ w', (∀ E : Engine Unit, E.createGlobalFunction ⟨0⟩ "y" (.boolean true) true w = .ok () w') ∧
      w'.own ⟨0⟩ "y" = some (.data (.boolean true) true true false) ∧
      w'.hasVarDeclaration ⟨0⟩ "y" = true := by
  intro w
  have hrecord : (w.scope ⟨0⟩).record = .global .empty ⟨⟨0⟩, ⟨0⟩, []⟩ := rfl
  have hobject : 0 < w.objects.size := Nat.one_pos
  have hx : w.own ⟨0⟩ "x" = some (.data .null false true false) := by decide +kernel
  have hy : w.own ⟨0⟩ "y" = some (.data .null true true false) := by decide +kernel
  obtain ⟨-, hvar, -⟩ := Engine.global_declarations hrecord hobject "x" true
  obtain ⟨hfunction, -⟩ := Engine.global_declarations hrecord hobject "y" true
  dsimp only at hvar hfunction
  rw [hx] at hvar
  rw [hy] at hfunction
  exact ⟨hvar (by decide +kernel), hfunction (.boolean true) (by decide +kernel)⟩

end EcmaCore
