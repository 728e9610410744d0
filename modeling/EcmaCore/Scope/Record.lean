import EcmaCore.Scope.Binding

/-!
# Environment records

An environment record resolves names in up to three places: the names it
imports from other modules, its declared bindings (its *slots*), and the
properties of a backing object. A declarative, function or module record has
slots only (a module record also imports), an object record has a backing
object only, and a global record has slots in front of a backing object.

Records are joined into chains by `Scope.outer`.
-/

namespace EcmaCore

/-- An import: the module it comes from and its name there. -/
structure Import where
  source : ModuleId
  exported : String
  deriving DecidableEq, Repr

/-- What a function record knows beyond its slots: the value of `this` once it is bound, whether
the function leaves `this` to its surroundings, the function, and the constructor it was
invoked for. -/
structure FunctionScope where
  this : Option Value
  lexicalThis : Bool
  function : ObjectId
  newTarget : Option ObjectId
  deriving DecidableEq

/-- What a global record knows beyond its slots: the global object, the value of `this`, and the
names declared as variables or functions. -/
structure GlobalScope where
  object : ObjectId
  this : ObjectId
  varNames : List String
  deriving DecidableEq

/-- An environment record. -/
inductive Record where
  | declarative (slots : Bindings)
  | object (backing : ObjectId) (isWith : Bool)
  | function (slots : Bindings) (info : FunctionScope)
  | global (slots : Bindings) (info : GlobalScope)
  | module (slots : Bindings) (imports : Table String Import)
  deriving DecidableEq

/-- An environment: a record and the environment around it. -/
structure Scope where
  record : Record
  outer : Option ScopeId
  deriving DecidableEq

namespace Record

/-- The declared bindings of a record. -/
def slots : Record → Bindings
  | .declarative slots => slots
  | .object .. => .empty
  | .function slots _ => slots
  | .global slots _ => slots
  | .module slots _ => slots

/-- A record with other declared bindings. -/
def withSlots (r : Record) (slots : Bindings) : Record :=
  match r with
  | .declarative _ => .declarative slots
  | .object backing isWith => .object backing isWith
  | .function _ info => .function slots info
  | .global _ info => .global slots info
  | .module _ imports => .module slots imports

/-- The object whose properties a record resolves names in, and whether it does so for a `with`
statement. -/
def backing? : Record → Option (ObjectId × Bool)
  | .object backing isWith => some (backing, isWith)
  | .global _ info => some (info.object, false)
  | _ => none

/-- The import of a name. -/
def import? (r : Record) (name : String) : Option Import :=
  match r with
  | .module _ imports => imports.get? name
  | _ => none

/-- Whether a record has a value of `this` of its own. -/
def hasThis : Record → Bool
  | .function _ info => !info.lexicalThis
  | .global .. | .module .. => true
  | .declarative _ | .object .. => false

/-- The object of a `with` statement. -/
def withObject? : Record → Option ObjectId
  | .object backing true => some backing
  | _ => none

/-- The value of `this` of a record. -/
def this : Record → Except Error Value
  | .function _ info =>
      if info.lexicalThis then .error .arrowThisRead
      else
        match info.this with
        | none => .error .thisUninitialized
        | some v => .ok v
  | .global _ info => .ok (.object info.this)
  | .module .. => .ok .undefined
  | .declarative _ | .object .. => .error .noThis

/-- A function record with its value of `this` bound, which happens at most once. -/
def bindThis (r : Record) (v : Value) : Except Error Record :=
  match r with
  | .function slots info =>
      if info.lexicalThis then .error .arrowThisBound
      else if info.this.isSome then .error .thisAlreadyBound
      else .ok (.function slots { info with this := some v })
  | _ => .error .functionScopeExpected

/-- A record with a name added to its list of declared variables and functions. -/
def addVarName (r : Record) (name : String) : Record :=
  match r with
  | .global slots info =>
      if name ∈ info.varNames then r
      else .global slots { info with varNames := info.varNames ++ [name] }
  | _ => r

/-- A record with a name taken off its list of declared variables and functions. -/
def removeVarName (r : Record) (name : String) : Record :=
  match r with
  | .global slots info => .global slots { info with varNames := info.varNames.filter (· ≠ name) }
  | _ => r

/-- A record with an import. The name also becomes a constant of the record, which no read ever
reaches. -/
def addImport (r : Record) (name : String) (target : Import) : Except Error Record :=
  match r with
  | .module slots imports =>
      (slots.create name false false true).init name .undefined |>.map fun slots =>
        .module slots (imports.insert name target)
  | _ => .ok r

end Record

end EcmaCore
