import EcmaCore.Error
import EcmaCore.Table
import EcmaCore.Value

/-!
# Declared bindings

The bindings that an environment declares itself. A binding exists before it
has a value; until it is initialised, reading and writing it are errors. Its
three flags are fixed when it is created, and creating it again changes
nothing.

## Main results

* `get?_create`: creating a binding keeps one that is there.
* `read_eq`: what reading a binding answers, from the binding alone.
-/

namespace EcmaCore

/-- A binding: its value once it is initialised, whether assignments change it, whether it can
be deleted, and whether assignments to it count as strict. -/
structure Binding where
  value : Option Value
  mutable : Bool
  deletable : Bool
  strict : Bool
  deriving DecidableEq

/-- The bindings of an environment by name. -/
abbrev Bindings := Table String Binding

namespace Bindings

/-- Creates a binding without a value, unless the name has one. -/
def create (bs : Bindings) (name : String) (mutable deletable strict : Bool) : Bindings :=
  if bs.contains name then bs
  else bs.insert name { value := none, mutable, deletable, strict }

/-- Gives a binding its value. -/
def init (bs : Bindings) (name : String) (v : Value) : Except Error Bindings :=
  match bs.get? name with
  | none => .error (.notDefined name)
  | some b => .ok (bs.insert name { b with value := some v })

/-- Assigns to a binding. A sloppy assignment creates a missing one and leaves a constant as it
is; a strict one fails on both. -/
def assign (bs : Bindings) (name : String) (v : Value) (strict : Bool) : Except Error Bindings :=
  match bs.get? name with
  | none =>
      if strict then .error (.notDefined name)
      else (bs.create name true true false).init name v
  | some b =>
      if b.value.isNone then .error (.uninitialized name)
      else if b.mutable then .ok (bs.insert name { b with value := some v })
      else if strict || b.strict then .error (.constantAssigned name)
      else .ok bs

/-- Reads a binding. -/
def read (bs : Bindings) (name : String) : Except Error Value :=
  match bs.get? name with
  | none => .error (.notDefined name)
  | some b =>
      match b.value with
      | none => .error (.uninitialized name)
      | some v => .ok v

/-- The binding of a name with its value, if it has one. -/
def probe (bs : Bindings) (name : String) : Option (Binding × Value) :=
  match bs.get? name with
  | none => none
  | some b => b.value.map fun v => (b, v)

/-- Deletes a binding. Absent when it is there and not deletable. -/
def delete (bs : Bindings) (name : String) : Option Bindings :=
  match bs.get? name with
  | none => some bs
  | some b => if b.deletable then some (bs.erase name) else none

/-! ## Laws -/

/-- Creating a binding keeps one that is there. -/
theorem get?_create (bs : Bindings) (name other : String) (mutable deletable strict : Bool) :
    (bs.create name mutable deletable strict).get? other =
      if name = other ∧ bs.get? name = none then
        some { value := none, mutable, deletable, strict }
      else bs.get? other := by
  unfold create
  rw [Table.contains_eq_isSome]
  cases h : bs.get? name with
  | none =>
      simp only [Option.isSome_none, Bool.false_eq_true, if_false, Table.get?_insert, and_true]
  | some b => simp

/-- What reading a binding answers, from the binding alone. -/
theorem read_eq (bs : Bindings) (name : String) :
    bs.read name =
      match bs.get? name with
      | none => .error (.notDefined name)
      | some b => b.value.elim (.error (.uninitialized name)) .ok := by
  unfold read
  cases bs.get? name with
  | none => rfl
  | some b => cases h : b.value <;> simp [h]

end Bindings

end EcmaCore
