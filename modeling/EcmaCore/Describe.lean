import EcmaCore.Object
import EcmaCore.Text.Quoted

/-!
# Descriptions for diagnostics

How values, properties and objects are written when a program is examined, as
opposed to how they appear in messages: a value names its kind, a text is
quoted, and objects are not opened.
-/

namespace EcmaCore

/-- A flag in a description. -/
def flagText (b : Bool) : String := if b then "true" else "false"

/-- The description of a value. -/
def Value.describe : Value → String
  | .undefined => "JsValue::Undefined"
  | .null => "JsValue::Null"
  | .boolean b => "JsValue::Boolean(" ++ flagText b ++ ")"
  | .string s => "JsValue::String(" ++ quote s ++ ")"
  | .symbol s => "JsValue::Symbol(" ++ s.display ++ ")"
  | .number n => "JsValue::Number(" ++ n.describe ++ ")"
  | .object _ => "JsValue::Object(...)"

/-- The description of a property. -/
def Property.describe : Property → String
  | .data v writable enumerable configurable =>
      "Data \x7b value: " ++ v.describe ++ ", writable: " ++ flagText writable ++
        ", enumerable: " ++ flagText enumerable ++ ", configurable: " ++ flagText configurable ++
        " \x7d"
  | .accessor getter setter enumerable configurable =>
      "Accessor \x7b get: " ++ flagText getter.isSome ++ ", set: " ++ flagText setter.isSome ++
        ", enumerable: " ++ flagText enumerable ++ ", configurable: " ++ flagText configurable ++
        " \x7d"

/-- The description of an object. -/
def Object.describe (o : Object) : String :=
  match o.nature with
  | .plain => "ObjectType::Ordinary(...)"
  | .function _ => "ObjectType::Function(...)"
  | .buffer _ => "ObjectType::ArrayBuffer(...)"

end EcmaCore
