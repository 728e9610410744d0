import EcmaCore.Ledger

/-!
# Array buffers

A buffer owns a block of bytes until it is detached, which cannot be undone. A
buffer with a maximum can be resized up to it, one without has a fixed length.
Shared buffers are told apart but do nothing of their own.

`Buffer.resize` works on the buffer, the ledger and the supply of memory
together and leaves all three as they were when it fails, apart from having
asked for memory.
-/

namespace EcmaCore

/-- An array buffer. `block` is absent once the buffer is detached; `reserved` are the bytes
charged for the block, if it was charged at all. -/
structure Buffer where
  block : Option (List UInt8)
  maximum : Option UInt64
  shared : Bool
  reserved : Option UInt64
  deriving DecidableEq, Repr

namespace Buffer

/-- A new buffer of zeros that is not charged to any ledger. -/
def zeros (length : UInt64) (maximum : Option UInt64) (shared : Bool) : Buffer :=
  { block := some (List.replicate length.toNat 0)
    maximum, shared
    reserved := none }

/-- Whether the buffer has been detached. -/
def isDetached (b : Buffer) : Bool := b.block.isNone

/-- Whether the buffer can never be resized. -/
def isFixed (b : Buffer) : Bool := b.maximum.isNone

/-- The bytes of a buffer, none once it is detached. -/
def bytes (b : Buffer) : List UInt8 := b.block.getD []

/-- The length of a buffer, zero once it is detached. -/
def length (b : Buffer) : UInt64 := UInt64.ofNat b.bytes.length

/-- Bytes cut or filled up with zeros to a length. -/
def fit (bytes : List UInt8) (length : Nat) : List UInt8 :=
  bytes.take length ++ List.replicate (length - bytes.length) 0

/-- Bytes with others written over them from a position on, as far as they fit. -/
def overwrite (bytes : List UInt8) (position : Nat) (source : List UInt8) : List UInt8 :=
  bytes.take position ++
    (source.take (bytes.length - position) ++ bytes.drop (position + source.length))

/-- Gives up the block and what was charged for it. -/
def detach (b : Buffer) (ledger : Ledger) : Buffer × Ledger :=
  ({ b with block := none, reserved := none }, ledger.release (b.reserved.getD 0))

/-- Resizes the block of a resizable buffer. Growth is charged first and undone when the block
cannot be had. -/
def resize (b : Buffer) (length : UInt64) (ledger : Ledger) (memory : Memory) :
    Except Error Unit × Buffer × Ledger × Memory :=
  match b.maximum with
  | none => (.error .notResizable, b, ledger, memory)
  | some maximum =>
      if maximum < length then (.error (.resizeBeyondMaximum length maximum), b, ledger, memory)
      else
        match b.block with
        | none => (.error .resizeDetached, b, ledger, memory)
        | some bytes =>
            let grows := b.length < length
            match b.reserved with
            | none =>
                if grows && !memory.next length then
                  (.error (.allocationFailed length), b, ledger, memory.advance)
                else
                  (.ok (), { b with block := some (fit bytes length.toNat) }, ledger,
                    if grows then memory.advance else memory)
            | some held =>
                match ledger.move held length with
                | .error e => (.error e, b, ledger, memory)
                | .ok moved =>
                    if grows && !memory.next length then
                      match moved.move length b.length with
                      | .error e =>
                          (.error e, { b with reserved := some length }, moved, memory.advance)
                      | .ok restored =>
                          (.error (.allocationFailed length),
                            { b with reserved := some b.length }, restored, memory.advance)
                    else
                      (.ok (),
                        { b with block := some (fit bytes length.toNat), reserved := some length },
                        moved, if grows then memory.advance else memory)

end Buffer

end EcmaCore
