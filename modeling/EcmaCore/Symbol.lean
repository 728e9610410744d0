/-!
# Symbols

A symbol is known by which symbol it is, never by its description: two symbols
created with one description are different. Four symbols are well known, the
others are numbered in the order of their creation.
-/

namespace EcmaCore

/-- A symbol value. -/
inductive Symbol where
  | species
  | toPrimitive
  | toStringTag
  | unscopables
  | created (number : Nat) (description : String)
  deriving DecidableEq, Repr

namespace Symbol

/-- The text a symbol was described with. -/
def description : Symbol → String
  | .species => "Symbol.species"
  | .toPrimitive => "Symbol.toPrimitive"
  | .toStringTag => "Symbol.toStringTag"
  | .unscopables => "Symbol.unscopables"
  | .created _ description => description

/-- The name of a function that is keyed by a symbol. -/
def functionName (s : Symbol) : String := "[" ++ s.description ++ "]"

/-- A symbol for diagnostics and in messages. -/
def display (s : Symbol) : String := "Symbol(" ++ s.description ++ ")"

end Symbol

end EcmaCore
