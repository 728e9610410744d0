import EcmaCore.Number.Integer
import EcmaCore.Number.Text
import EcmaCore.Symbol

/-!
# Values

The values of the language and the relations between them. Objects are known
by identity: a value holds the identifier under which the world keeps the
object.

Three relations compare values and differ only on numbers. `sameValue` tells
the two zeros apart and equates not-a-number with itself, `sameValueZero`
equates the zeros as well, and `strictlyEqual` is numerical equality. A fourth,
`sameForm`, compares numbers by the form they are kept in.
-/

namespace EcmaCore

/-! ## Identifiers -/

/-- An object of a world; numbers grow in the order of creation. -/
structure ObjectId where
  index : Nat
  deriving DecidableEq, Repr, Hashable, Inhabited

/-- An environment of a world; numbers grow in the order of creation. -/
structure ScopeId where
  index : Nat
  deriving DecidableEq, Repr, Hashable, Inhabited

/-- A module of a world. -/
structure ModuleId where
  index : Nat
  deriving DecidableEq, Repr, Hashable, Inhabited

/-- A piece of user code, looked up in the program that a world runs. -/
structure CodeId where
  index : Nat
  deriving DecidableEq, Repr, Hashable, Inhabited

/-! ## Values and property keys -/

/-- A value of the language. -/
inductive Value where
  | undefined
  | null
  | boolean (b : Bool)
  | string (s : String)
  | symbol (s : Symbol)
  | number (n : Number)
  | object (o : ObjectId)
  deriving DecidableEq

instance : Inhabited Value := ⟨.undefined⟩

/-- The name of a property: a text or a symbol. -/
inductive PropertyKey where
  | text (s : String)
  | symbol (s : Symbol)
  deriving DecidableEq, Repr

instance : Coe String PropertyKey := ⟨.text⟩
instance : Coe Symbol PropertyKey := ⟨.symbol⟩

namespace PropertyKey

/-- A key in messages. -/
def display : PropertyKey → String
  | .text s => s
  | .symbol s => s.display

/-- The name a function takes from its key. -/
def functionName : PropertyKey → String
  | .text s => s
  | .symbol s => s.functionName

/-- The key of a position in a list. -/
def ofIndex (i : Nat) : PropertyKey := .text (decimalText i)

/-- A key as a value. -/
def toValue : PropertyKey → Value
  | .text s => .string s
  | .symbol s => .symbol s

end PropertyKey

namespace Value

/-- The Number of a double as a value. -/
def ofDouble (x : Double) : Value := .number (.ofDouble x)

/-- A 64-bit size as a value. -/
def ofSize (size : UInt64) : Value := .number (.ofSize size)

/-- Whether a value is undefined. -/
def isUndefined : Value → Bool
  | .undefined => true
  | _ => false

/-- Whether a value is undefined or null. -/
def isNullish : Value → Bool
  | .undefined | .null => true
  | _ => false

/-- Whether a value counts as true: everything but undefined, null, false, the empty text,
the zeros and not-a-number. -/
def truthy : Value → Bool
  | .undefined | .null => false
  | .boolean b => b
  | .string s => !s.isEmpty
  | .symbol _ => true
  | .number n => !(n.toDouble.isNaN || n.toDouble.isZero)
  | .object _ => true

/-! ## Comparison -/

/-- Identity for all values but numbers. -/
def sameNonNumber : Value → Value → Bool
  | .undefined, .undefined => true
  | .null, .null => true
  | .boolean a, .boolean b => a == b
  | .string a, .string b => a == b
  | .symbol a, .symbol b => a == b
  | .object a, .object b => a == b
  | _, _ => false

/-- Sameness of doubles: not-a-number is itself, and the zeros differ if their sign matters. -/
def sameNumber (zeroSignMatters : Bool) (a b : Double) : Bool :=
  if a.isNaN && b.isNaN then true
  else if a.isZero && b.isZero then !zeroSignMatters || a.isNegative == b.isNegative
  else a.eq b

/-- Sameness that tells the zeros apart. -/
def sameValue : Value → Value → Bool
  | .number a, .number b => sameNumber true a.toDouble b.toDouble
  | a, b => sameNonNumber a b

/-- Sameness that equates the zeros. -/
def sameValueZero : Value → Value → Bool
  | .number a, .number b => sameNumber false a.toDouble b.toDouble
  | a, b => sameNonNumber a b

/-- Numerical equality on numbers, identity on the rest. -/
def strictlyEqual : Value → Value → Bool
  | .number a, .number b => a.toDouble.eq b.toDouble
  | a, b => sameNonNumber a b

/-- Equality of the forms in which two values are kept. -/
def sameForm : Value → Value → Bool
  | .number a, .number b => a.sameForm b
  | a, b => sameNonNumber a b

end Value

end EcmaCore
