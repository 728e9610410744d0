import EcmaCore.Value

/-!
# Properties and their redefinition

A property is a data property, with a value and a writable flag, or an accessor
property, with a getter and a setter slot; both carry an enumerable and a
configurable flag. A `PropertyUpdate` describes a redefinition: it carries a
property and says which of its fields are meant.

`PropertyUpdate.allowedOn` decides whether a redefinition is admissible for an
existing property and `PropertyUpdate.applyTo` computes what it leaves behind.
-/

namespace EcmaCore

/-- A property of an object. -/
inductive Property where
  | data (value : Value) (writable enumerable configurable : Bool)
  | accessor (getter setter : Option ObjectId) (enumerable configurable : Bool)
  deriving DecidableEq

namespace Property

/-- Whether enumerations show the property. -/
def enumerable : Property → Bool
  | .data _ _ enumerable _ => enumerable
  | .accessor _ _ enumerable _ => enumerable

/-- Whether the property may be removed and redefined freely. -/
def configurable : Property → Bool
  | .data _ _ _ configurable => configurable
  | .accessor _ _ _ configurable => configurable

/-- Whether the property is an accessor property. -/
def isAccessor : Property → Bool
  | .data .. => false
  | .accessor .. => true

/-- The value of a data property, undefined for an accessor property. -/
def value : Property → Value
  | .data value _ _ _ => value
  | .accessor .. => .undefined

/-- The writable flag of a data property, false for an accessor property. -/
def writable : Property → Bool
  | .data _ writable _ _ => writable
  | .accessor .. => false

/-- The getter slot of an accessor property, empty for a data property. -/
def getter : Property → Option ObjectId
  | .data .. => none
  | .accessor getter _ _ _ => getter

/-- The setter slot of an accessor property, empty for a data property. -/
def setter : Property → Option ObjectId
  | .data .. => none
  | .accessor _ setter _ _ => setter

/-- Whether two properties are of one kind with the same flags, the same value or the same
functions. -/
def same : Property → Property → Bool
  | .data v w e c, .data v' w' e' c' => v.sameValue v' && w == w' && e == e' && c == c'
  | .accessor g s e c, .accessor g' s' e' c' => g == g' && s == s' && e == e' && c == c'
  | _, _ => false

end Property

/-- A redefinition of a property: the fields of `carried` that are marked as honoured, and no
others, are meant. -/
structure PropertyUpdate where
  honoursValue : Bool
  honoursWritable : Bool
  honoursGetter : Bool
  honoursSetter : Bool
  honoursEnumerable : Bool
  honoursConfigurable : Bool
  carried : Property
  deriving DecidableEq

namespace PropertyUpdate

/-- The redefinition by all fields of a property. -/
def full (p : Property) : PropertyUpdate :=
  { honoursValue := !p.isAccessor
    honoursWritable := !p.isAccessor
    honoursGetter := p.isAccessor
    honoursSetter := p.isAccessor
    honoursEnumerable := true
    honoursConfigurable := true
    carried := p }

/-- The redefinition by an ordinary data property: writable, enumerable and configurable. -/
def ordinary (v : Value) : PropertyUpdate := full (.data v true true true)

/-- The redefinition that only gives a new value. -/
def valueOnly (v : Value) : PropertyUpdate :=
  { honoursValue := true
    honoursWritable := false
    honoursGetter := false
    honoursSetter := false
    honoursEnumerable := false
    honoursConfigurable := false
    carried := .data v false false false }

/-- The redefinition that takes a data property's writable and configurable flags away. -/
def freeze : PropertyUpdate :=
  { honoursValue := false
    honoursWritable := true
    honoursGetter := false
    honoursSetter := false
    honoursEnumerable := false
    honoursConfigurable := true
    carried := .data .undefined false false false }

/-- Whether no field is honoured. -/
def isEmpty (u : PropertyUpdate) : Bool :=
  !u.honoursConfigurable && !u.honoursEnumerable && !u.honoursGetter && !u.honoursSetter &&
    !u.honoursValue && !u.honoursWritable

/-- Whether no field that belongs to one kind of property is honoured. -/
def isGeneric (u : PropertyUpdate) : Bool :=
  !u.honoursGetter && !u.honoursSetter && !u.honoursValue && !u.honoursWritable

/-- Whether a field of accessor properties is honoured. -/
def isAccessor (u : PropertyUpdate) : Bool := u.honoursGetter || u.honoursSetter

/-- What a redefinition leaves behind on top of the current property, or as a new property.
Fields that are not honoured keep their current content, or are false, undefined or empty
when there is none of the kind. -/
def applyTo (u : PropertyUpdate) (current : Option Property) : Property :=
  let enumerable :=
    if u.honoursEnumerable then u.carried.enumerable else current.any Property.enumerable
  let configurable :=
    if u.honoursConfigurable then u.carried.configurable else current.any Property.configurable
  let wantsAccessor :=
    if u.isGeneric then current.any Property.isAccessor else u.isAccessor
  if wantsAccessor then
    .accessor
      (if u.honoursGetter then u.carried.getter else current.bind Property.getter)
      (if u.honoursSetter then u.carried.setter else current.bind Property.setter)
      enumerable configurable
  else
    .data
      (if u.honoursValue then u.carried.value else (current.map Property.value).getD .undefined)
      (if u.honoursWritable then u.carried.writable else current.any Property.writable)
      enumerable configurable

/-- Whether the content of a non-configurable property may be redefined so. Accessor slots may
only be repeated; a read-only data property may neither become writable nor change its value. -/
def contentAllowedOn (u : PropertyUpdate) (current : Property) : Bool :=
  match current, u.carried with
  | .accessor currentGetter currentSetter _ _, .accessor getter setter _ _ =>
      !(u.honoursGetter && currentGetter != getter) && !(u.honoursSetter && currentSetter != setter)
  | .data currentValue false _ _, .data value writable _ _ =>
      !(u.honoursWritable && writable) && !(u.honoursValue && !currentValue.sameValue value)
  | _, _ => true

/-- Whether an existing property may be redefined so. A configurable property may be redefined
in every way, any property by a redefinition that means nothing. -/
def allowedOn (u : PropertyUpdate) (current : Property) : Bool :=
  u.isEmpty || current.configurable ||
    (!(u.honoursConfigurable && u.carried.configurable) &&
      !(u.honoursEnumerable && u.carried.enumerable != current.enumerable) &&
      (u.isGeneric || u.isAccessor == current.isAccessor) &&
      u.contentAllowedOn current)

end PropertyUpdate

end EcmaCore
