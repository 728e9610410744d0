import EcmaCore.Engine.Property

/-!
# Bindings of environments

A name of an environment is, in this order, an import, a slot or a property of
the backing object. Each operation decides by that order which of the three it
works on; slots are pure tables, backing objects may run getters and setters,
and imports are read from their module every time.

Creating bindings is the one operation that depends on the kind of record: a
global record refuses to declare a slot twice, and an object record adds a
property instead.
-/

namespace EcmaCore.Engine

variable {σ : Type}

/-! ## Backing objects -/

/-- Whether a backing object has a name. That of a `with` statement may hide names by its
`unscopables`, which is held on to while it is asked. -/
def backingHas (E : Engine σ) (backing : ObjectId) (isWith : Bool) (name : String) :
    Action σ Bool := do
  if !(← get).hasProperty backing name then return false
  if !isWith then return true
  match ← E.getProperty backing Symbol.unscopables with
  | .object hidden =>
      return !(← (E.getProperty hidden name).holding [.object hidden]).truthy
  | _ => return true

/-- Reads a name of a backing object. -/
def backingGet (E : Engine σ) (backing : ObjectId) (name : String) (strict : Bool) :
    Action σ Value := do
  if (← get).hasProperty backing name then E.getProperty backing name
  else if strict then Action.fail (.notDefined name)
  else return .undefined

/-- Assigns to a name of a backing object. -/
def backingSet (E : Engine σ) (backing : ObjectId) (name : String) (v : Value) (strict : Bool) :
    Action σ Unit := do
  if !(← get).hasProperty backing name && strict then Action.fail (.notDefined name)
  let _ ← E.setProperty backing name v strict

/-! ## Imports -/

/-- Reads an import from its module, which must still be kept by something and is held on to
meanwhile. -/
def readImport [Embedding σ] (E : Engine σ) (name : String) (i : Import) : Action σ Value := do
  Action.settle
  if ((← get).module i.source).available then
    (E.readExport i.source i.exported true).holding [.module i.source]
  else Action.fail (.moduleGone name)

/-! ## Names of an environment -/

/-- Replaces the slots of an environment by the result of an operation on them. -/
def updateSlots (s : ScopeId) (f : Bindings → Except Error Bindings) : Action σ Unit :=
  Action.attempt fun w =>
    let record := (w.scope s).record
    (f record.slots).map fun slots => ((), w.setRecord s (record.withSlots slots))

/-- Whether an environment has a name. -/
def hasBinding (E : Engine σ) (s : ScopeId) (name : String) : Action σ Bool := do
  let record := ((← get).scope s).record
  if record.slots.contains name then return true
  match record.backing? with
  | some (backing, isWith) => E.backingHas backing isWith name
  | none => return false

/-- The property that a name becomes when it is created on a backing object. -/
def backingProperty (deletable : Bool) : PropertyUpdate :=
  .full (.data .undefined true true deletable)

/-- Creates a mutable binding. -/
def createMutable (s : ScopeId) (name : String) (deletable : Bool) : Action σ Unit := do
  match ((← get).scope s).record with
  | .object backing _ => defineOrFail backing name (backingProperty deletable)
  | .global slots _ =>
      if slots.contains name then Action.fail (.bindingPresent name)
      else updateSlots s fun slots => .ok (slots.create name true deletable false)
  | _ => updateSlots s fun slots => .ok (slots.create name true deletable false)

/-- Creates a constant. -/
def createImmutable (s : ScopeId) (name : String) (strict : Bool) : Action σ Unit := do
  match ((← get).scope s).record with
  | .object .. => Action.fail (.immutableInObject name)
  | .global slots _ =>
      if slots.contains name then Action.fail (.bindingPresent name)
      else updateSlots s fun slots => .ok (slots.create name false false strict)
  | _ => updateSlots s fun slots => .ok (slots.create name false false strict)

/-- Gives a binding its first value. -/
def initBinding (E : Engine σ) (s : ScopeId) (name : String) (v : Value) : Action σ Unit := do
  let record := ((← get).scope s).record
  match record.backing? with
  | some (backing, _) =>
      if record.slots.contains name then updateSlots s (·.init name v)
      else E.backingSet backing name v false
  | none => updateSlots s (·.init name v)

/-- Assigns to a binding. -/
def setBinding (E : Engine σ) (s : ScopeId) (name : String) (v : Value) (strict : Bool) :
    Action σ Unit := do
  let record := ((← get).scope s).record
  match record.backing? with
  | some (backing, _) =>
      if record.slots.contains name then updateSlots s (·.assign name v strict)
      else E.backingSet backing name v strict
  | none => updateSlots s (·.assign name v strict)

/-- Reads a binding. -/
def getBinding [Embedding σ] (E : Engine σ) (s : ScopeId) (name : String) (strict : Bool) :
    Action σ Value := do
  let record := ((← get).scope s).record
  match record.import? name with
  | some i => E.readImport name i
  | none =>
      match record.backing? with
      | some (backing, _) =>
          if record.slots.contains name then Action.ofExcept (record.slots.read name)
          else E.backingGet backing name strict
      | none => Action.ofExcept (record.slots.read name)

/-- The binding of a name with its value, if the environment has one and it is initialised. -/
def probeBinding [Embedding σ] (E : Engine σ) (s : ScopeId) (name : String) (strict : Bool) :
    Action σ (Option (Binding × Value)) := do
  let record := ((← get).scope s).record
  match record.import? name with
  | some i =>
      let v ← E.readImport name i
      return some ({ value := some v, mutable := false, deletable := false, strict := true }, v)
  | none =>
      match record.backing? with
      | some (backing, isWith) =>
          if record.slots.contains name then return record.slots.probe name
          else if ← E.backingHas backing isWith name then
            let v ← E.backingGet backing name strict
            return some
              ({ value := some v, mutable := true, deletable := true, strict := false }, v)
          else return none
      | none => return record.slots.probe name

/-- Deletes a name of an environment and says whether it is gone. -/
def deleteBinding (s : ScopeId) (name : String) : Action σ Bool :=
  Action.change fun w =>
    let record := (w.scope s).record
    match record.backing? with
    | some (backing, _) =>
        if record.slots.contains name then
          match record.slots.delete name with
          | some slots => (true, w.setRecord s (record.withSlots slots))
          | none => (false, w)
        else if w.hasOwn backing name then
          match w.delete backing name with
          | (true, w) => (true, w.setRecord s (record.removeVarName name))
          | (false, w) => (false, w)
        else (true, w)
    | none =>
        match record.slots.delete name with
        | some slots => (true, w.setRecord s (record.withSlots slots))
        | none => (false, w)

/-! ## The value of `this` -/

/-- The value of `this` of an environment. -/
def thisOf (s : ScopeId) : Action σ Value := do
  Action.ofExcept ((← get).scope s).record.this

/-- Binds the value of `this` of a function environment. -/
def bindThis (s : ScopeId) (v : Value) : Action σ Unit :=
  Action.attempt fun w =>
    ((w.scope s).record.bindThis v).map fun record => ((), w.setRecord s record)

/-- Binds the `this` that a call passes, in the way of the function that is called. -/
def bindCallThis (s : ScopeId) (mode : ThisMode) (v : Value) : Action σ Unit := do
  match mode with
  | .lexical => return ()
  | .strict => bindThis s v
  | .global =>
      if v.isNullish then bindThis s (.object (← get).realm.global)
      else bindThis s v

/-- The value of `this` where code is running. -/
def resolveThis : Action σ Value := do thisOf (← get).thisScope

/-! ## New environments -/

/-- Creates an environment. -/
def newScope (record : Record) (outer : Option ScopeId) : Action σ ScopeId :=
  Action.change (·.addScope record outer)

/-- Creates the environment of an invocation of an ordinary function, inside the one that the
function closed over. -/
def newFunctionScope (f : ObjectId) (newTarget : Option ObjectId) : Action σ ScopeId := do
  match (← get).function? f with
  | some (.ordinary d) =>
      newScope
        (.function .empty
          { this := none, lexicalThis := d.thisMode == .lexical, function := f, newTarget })
        (some d.scope)
  | _ => Action.fail .functionScopeOfOther

/-- Registers an import in a module environment. -/
def createImport (s : ScopeId) (source : ModuleId) (name exported : String) : Action σ Unit :=
  Action.attempt fun w =>
    ((w.scope s).record.addImport name { source, exported }).map fun record =>
      ((), w.setRecord s record)

end EcmaCore.Engine

namespace EcmaCore.World

variable {σ : Type}

/-! ## Questions to a global environment -/

/-- The global scope of an environment, if it is one. -/
def global? (w : World σ) (s : ScopeId) : Option GlobalScope :=
  match (w.scope s).record with
  | .global _ info => some info
  | _ => none

/-- Whether a name was declared as a variable or function. -/
def hasVarDeclaration (w : World σ) (s : ScopeId) (name : String) : Bool :=
  (w.global? s).any (name ∈ ·.varNames)

/-- Whether a name was declared lexically. -/
def hasLexicalDeclaration (w : World σ) (s : ScopeId) (name : String) : Bool :=
  (w.scope s).record.slots.contains name

/-- Whether a lexical declaration of a name must be refused for a property of the global object
that cannot be deleted. -/
def hasRestrictedProperty (w : World σ) (s : ScopeId) (name : String) : Bool :=
  (w.global? s).any fun info => (w.own info.object name).any (!·.configurable)

/-- Whether a variable of a name can be declared. -/
def canDeclareVar (w : World σ) (s : ScopeId) (name : String) : Bool :=
  (w.global? s).any fun info => w.hasOwn info.object name || (w.object info.object).extensible

/-- Whether a function of a name can be declared. -/
def canDeclareFunction (w : World σ) (s : ScopeId) (name : String) : Bool :=
  (w.global? s).any fun info =>
    match w.own info.object name with
    | none => (w.object info.object).extensible
    | some p =>
        p.configurable ||
          (match p with
            | .data _ true true _ => true
            | _ => false)

/-- Enters a name into the list of declared variables and functions. -/
def recordVarName (w : World σ) (s : ScopeId) (name : String) : World σ :=
  w.setRecord s ((w.scope s).record.addVarName name)

end EcmaCore.World

namespace EcmaCore.Engine

variable {σ : Type}

/-! ## Declarations in a global environment -/

/-- Declares a variable: adds a property to the global object if it is missing and can be
added. -/
def createGlobalVar (E : Engine σ) (s : ScopeId) (name : String) (deletable : Bool) :
    Action σ Unit := do
  let w ← get
  match w.global? s with
  | none => return ()
  | some info =>
      if !w.hasOwn info.object name && (w.object info.object).extensible then
        defineOrFail info.object name (backingProperty deletable)
        E.backingSet info.object name .undefined false
      modify (·.recordVarName s name)

/-- Declares a function: replaces the property of the global object, or only its value when it
cannot be redefined, and then assigns to it. -/
def createGlobalFunction (E : Engine σ) (s : ScopeId) (name : String) (f : Value)
    (deletable : Bool) : Action σ Unit := do
  let w ← get
  match w.global? s with
  | none => return ()
  | some info =>
      let update :=
        if ((w.own info.object name).map Property.configurable).getD true then
          PropertyUpdate.full (.data f true true deletable)
        else .valueOnly f
      defineOrFail info.object name update
      let _ ← E.setProperty info.object name f false
      modify (·.recordVarName s name)

end EcmaCore.Engine
