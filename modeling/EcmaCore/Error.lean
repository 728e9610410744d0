import EcmaCore.Text.Numeral

/-!
# Errors

Every way in which an operation of the runtime can fail, with the kind of error
it is and the message it carries. Texts that describe a value are rendered when
the error is raised, because objects change.
-/

namespace EcmaCore

/-- The three kinds of errors. -/
inductive ErrorKind where
  | reference
  | type
  | range
  deriving DecidableEq, Repr

/-- The causes of errors. -/
inductive Error where
  -- names and environments
  | notDefined (name : String)
  | uninitialized (name : String)
  | moduleGone (importName : String)
  | constantAssigned (name : String)
  | bindingPresent (name : String)
  | immutableInObject (name : String)
  -- the value of `this`
  | noThis
  | thisUninitialized
  | thisAlreadyBound
  | arrowThisRead
  | arrowThisBound
  | functionScopeExpected
  | functionScopeOfOther
  -- calling and constructing
  | notFunction (shown : String)
  | notConstructor (shown : String)
  | methodNotFunction (key : String)
  | classCalled (name : String)
  | derivedResult
  | constructorCalled
  | poisonedProperty
  | bindTarget
  | receiverNotFunction (method shown : String)
  | listFromNonObject
  | speciesHolderNotObject
  | speciesNotConstructor
  -- properties
  | readOnly (key : String)
  | definitionRejected (key : String)
  -- conversions
  | notPrimitive
  | symbolToNumber (shown : String)
  | symbolToString (shown : String)
  | invalidIndex (shown : String)
  -- array buffers
  | allocationFailed (bytes : UInt64)
  | lengthBeyondMaximum (length maximum : UInt64)
  | resizeBeyondMaximum (length maximum : UInt64)
  | resizeMethodBeyondMaximum (length maximum : UInt64)
  | notResizable
  | resizeDetached
  | resizeMethodFixed
  | incompatibleReceiver (method shown : String)
  | detachedReceiver (method : String)
  | detachNonBuffer
  | detachShared
  | speciesNotBuffer
  | speciesDetached
  | speciesSame
  | speciesShort (length expected : UInt64)
  -- errors of user code
  | raised (kind : ErrorKind) (message : String)
  deriving DecidableEq, Repr

namespace Error

/-- The kind of an error. -/
def kind : Error → ErrorKind
  | .notDefined _ | .uninitialized _ | .moduleGone _ | .noThis | .thisUninitialized
  | .thisAlreadyBound => .reference
  | .invalidIndex _ | .allocationFailed _ | .lengthBeyondMaximum .. | .resizeBeyondMaximum ..
  | .resizeMethodBeyondMaximum .. => .range
  | .raised kind _ => kind
  | _ => .type

/-- A 64-bit size in a message. -/
def sizeText (size : UInt64) : String := decimalText size.toNat

/-- The message of an error. -/
def message : Error → String
  | .notDefined name => "'" ++ name ++ "' is not defined"
  | .uninitialized name => "Cannot access '" ++ name ++ "' before initialization"
  | .moduleGone name => "module providing import '" ++ name ++ "' is no longer available"
  | .constantAssigned name => "Assignment to constant variable '" ++ name ++ "'"
  | .bindingPresent name => "'" ++ name ++ "' binding is already present"
  | .immutableInObject name =>
      "Cannot create immutable binding '" ++ name ++ "' in an object environment"
  | .noThis => "environment has no 'this' binding"
  | .thisUninitialized => "'this' is not initialized"
  | .thisAlreadyBound => "'this' is already initialized"
  | .arrowThisRead => "Cannot get 'this' of Arrow Function"
  | .arrowThisBound => "Cannot set 'this' of Arrow Function"
  | .functionScopeExpected => "Function environment expected"
  | .functionScopeOfOther => "Function environments are only created for ordinary functions"
  | .notFunction shown => shown ++ " is not a function"
  | .notConstructor shown => shown ++ " is not a constructor"
  | .methodNotFunction key => "'" ++ key ++ "' is not a function"
  | .classCalled name => "Class constructor '" ++ name ++ "' cannot be invoked without 'new'"
  | .derivedResult => "Derived constructors may only return object or undefined"
  | .constructorCalled => "Constructor ArrayBuffer requires 'new'"
  | .poisonedProperty =>
      "'caller', 'callee', and 'arguments' properties may not be accessed on strict mode " ++
        "functions or the arguments objects for calls to them"
  | .bindTarget => "Bind must be called on a function"
  | .receiverNotFunction method shown =>
      "Function.prototype." ++ method ++ " called on " ++ shown ++ ", which is not a function"
  | .listFromNonObject => "CreateListFromArrayLike called on non-object"
  | .speciesHolderNotObject => "object.constructor is not an object"
  | .speciesNotConstructor => "object.constructor[Symbol.species] is not a constructor"
  | .readOnly key => "Cannot assign to read only property '" ++ key ++ "'"
  | .definitionRejected key => "Cannot define property '" ++ key ++ "'"
  | .notPrimitive => "Cannot convert object to primitive value"
  | .symbolToNumber shown => "'" ++ shown ++ "' cannot be converted to number"
  | .symbolToString shown => "'" ++ shown ++ "' cannot be converted to string"
  | .invalidIndex shown => shown ++ " is not a valid index"
  | .allocationFailed bytes =>
      "Array buffer allocation of " ++ sizeText bytes ++ " bytes failed"
  | .lengthBeyondMaximum length maximum =>
      "byteLength " ++ sizeText length ++ " exceeds maxByteLength " ++ sizeText maximum
  | .resizeBeyondMaximum length maximum =>
      "new length " ++ sizeText length ++ " exceeds maxByteLength " ++ sizeText maximum
  | .resizeMethodBeyondMaximum length maximum =>
      "ArrayBuffer.prototype.resize: Invalid length " ++ sizeText length ++
        " exceeds maxByteLength " ++ sizeText maximum
  | .notResizable => "ArrayBuffer is not resizable"
  | .resizeDetached => "ArrayBuffer is detached"
  | .resizeMethodFixed =>
      "Method ArrayBuffer.prototype.resize called on a fixed-length ArrayBuffer"
  | .incompatibleReceiver method shown =>
      "Method ArrayBuffer.prototype." ++ method ++ " called on incompatible receiver " ++ shown
  | .detachedReceiver method =>
      "Cannot perform ArrayBuffer.prototype." ++ method ++ " on a detached ArrayBuffer"
  | .detachNonBuffer => "Cannot detach a value that is not an ArrayBuffer"
  | .detachShared => "Cannot detach a SharedArrayBuffer"
  | .speciesNotBuffer => "Species constructor did not return an ArrayBuffer"
  | .speciesDetached => "Species constructor returned a detached ArrayBuffer"
  | .speciesSame => "ArrayBuffer subclass returned this from species constructor"
  | .speciesShort length expected =>
      "Species constructor returned an ArrayBuffer of " ++ sizeText length ++
        " bytes, expected at least " ++ sizeText expected
  | .raised _ message => message

/-- The rendering of an error that nothing caught. -/
def display (e : Error) : String :=
  match e.kind with
  | .reference => "Uncaught reference error: " ++ e.message ++ "."
  | .type => "Uncaught type error: " ++ e.message ++ "."
  | .range => "Uncaught range error: " ++ e.message ++ "."

end Error

end EcmaCore
