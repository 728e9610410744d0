import EcmaCore.Error

/-!
# The ledger of buffer memory

The ledger counts the bytes that the data blocks of array buffers hold and
refuses what would exceed its limit. A reservation is the number of bytes its
owner holds: a buffer, or whoever reserved bytes without one. Charges are
64-bit words.

Whether a data block of an admitted size can really be had is a second
question, which `Memory` answers, one answer for each request in turn.
-/

namespace EcmaCore

/-- The bytes held and the most that may be held, if there is a limit. -/
structure Ledger where
  limit : Option UInt64
  allocated : UInt64
  deriving DecidableEq, Repr

namespace Ledger

/-- The ledger of an empty heap. -/
def start (limit : Option UInt64) : Ledger := ⟨limit, 0⟩

/-- Whether the limit admits so many more bytes. -/
def admits (l : Ledger) (bytes : UInt64) : Bool :=
  match l.limit with
  | none => true
  | some limit => l.allocated.toNat + bytes.toNat ≤ limit.toNat

/-- The bytes that the limit still admits. -/
def available (l : Ledger) : Option UInt64 :=
  l.limit.map fun limit => if l.allocated ≤ limit then limit - l.allocated else 0

/-- Charges bytes, unless the limit is against it. -/
def charge (l : Ledger) (bytes : UInt64) : Except Error Ledger :=
  if l.admits bytes then .ok { l with allocated := l.allocated + bytes }
  else .error (.allocationFailed bytes)

/-- Gives bytes back. -/
def release (l : Ledger) (bytes : UInt64) : Ledger :=
  { l with allocated := if bytes ≤ l.allocated then l.allocated - bytes else 0 }

/-- Moves a reservation from one number of bytes to another. Only growth can fail. -/
def move (l : Ledger) (held wanted : UInt64) : Except Error Ledger :=
  if held < wanted then l.charge (wanted - held) else .ok (l.release (held - wanted))

end Ledger

/-- The supply of data blocks: which request for how many bytes is granted, and how many
requests there have been. -/
structure Memory where
  grants : Nat → UInt64 → Bool
  asked : Nat

namespace Memory

/-- The supply that grants every block below the given size. -/
def below (size : UInt64) : Memory := ⟨fun _ bytes => bytes < size, 0⟩

/-- Whether the next request, for a block of so many bytes, is granted. -/
def next (m : Memory) (bytes : UInt64) : Bool := m.grants m.asked bytes

/-- The supply after one more request. -/
def advance (m : Memory) : Memory := { m with asked := m.asked + 1 }

end Memory

end EcmaCore
