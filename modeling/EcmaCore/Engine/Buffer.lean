import EcmaCore.Engine.Convert

/-!
# Array buffers in a world

Creating, detaching and resizing the buffers of a world, charged to its ledger
where they are to be charged. Before anything is charged, the bytes that nobody
holds any more are given back. A charge that turns out to be for nothing,
because the block cannot be had, is taken back.
-/

namespace EcmaCore

namespace World

variable {σ : Type}

/-- The buffer that an object is, if it is one. -/
def buffer? (w : World σ) (o : ObjectId) : Option Buffer := (w.object o).buffer?

/-- A world with the buffer of an object replaced. -/
def setBuffer (w : World σ) (o : ObjectId) (b : Buffer) : World σ :=
  w.modifyObject o ({ · with nature := .buffer b })

/-- Whether an object is a detached buffer. -/
def isDetached (w : World σ) (o : ObjectId) : Bool := (w.buffer? o).any Buffer.isDetached

/-- Detaches the buffer of an object and says how many bytes it held. -/
def detachBuffer (w : World σ) (o : ObjectId) : UInt64 × World σ :=
  match w.buffer? o with
  | none => (0, w)
  | some b =>
      let (detached, ledger) := b.detach w.ledger
      (b.length, { w.setBuffer o detached with ledger })

/-- Writes bytes into a buffer from a position on, as far as they fit. -/
def fillBuffer (w : World σ) (o : ObjectId) (position : Nat) (source : List UInt8) : World σ :=
  match w.buffer? o with
  | none => w
  | some b =>
      w.setBuffer o
        { b with block := b.block.map fun bytes => Buffer.overwrite bytes position source }

end World

namespace Engine

variable {σ : Type}

/-- Has a data block of so many bytes created, or fails. -/
def createBlock (length : UInt64) : Action σ Unit := do
  if ← Action.change (·.askMemory length) then return ()
  else Action.fail (.allocationFailed length)

/-- Creates a buffer that is not charged to the ledger. -/
def newBuffer (prototype : Option ObjectId) (length : UInt64) (maximum : Option UInt64)
    (shared : Bool) : Action σ ObjectId := do
  createBlock length
  Action.change (·.addObject (.new prototype (.buffer (.zeros length maximum shared))))

/-- Charges bytes to the ledger, with `entities` held on to. -/
def charge [Embedding σ] (length : UInt64) (entities : List Entity) : Action σ Unit := do
  Action.settle.holding entities
  Action.attempt fun w => (w.ledger.charge length).map fun ledger => ((), { w with ledger })

/-- Creates a buffer whose block is charged to the ledger before it is created. -/
def newChargedBuffer [Embedding σ] (prototype : ObjectId) (length : UInt64)
    (maximum : Option UInt64) : Action σ ObjectId := do
  charge length [.object prototype]
  if ← Action.change (·.askMemory length) then
    Action.change (·.addObject (.new (some prototype)
      (.buffer { Buffer.zeros length maximum false with reserved := some length })))
  else
    modify fun w => { w with ledger := w.ledger.release length }
    Action.fail (.allocationFailed length)

/-- Creates a buffer for a constructor. The maximum is checked before the constructor is asked
for the prototype. -/
def allocateBuffer [Embedding σ] (E : Engine σ) (constructor : ObjectId) (length : UInt64)
    (maximum : Option UInt64) : Action σ ObjectId := do
  match maximum.filter (· < length) with
  | some m => Action.fail (.lengthBeyondMaximum length m)
  | none =>
      newChargedBuffer (← E.prototypeFromConstructor constructor .arrayBufferPrototype) length
        maximum

/-- The maximum length that the options of a construction ask for. Only an object with a
defined `maxByteLength` asks for one. -/
def maximumOption (E : Engine σ) (options : Value) : Action σ (Option UInt64) := do
  match options with
  | .object o =>
      let v ← E.getProperty o "maxByteLength"
      if v.isUndefined then return none
      return some (← (E.toIndex v).holding v.entities)
  | _ => return none

/-- Detaches a buffer, which must not be shared. -/
def detach (o : ObjectId) : Action σ Unit := do
  match (← get).buffer? o with
  | none => Action.fail .detachNonBuffer
  | some b =>
      if b.shared then Action.fail .detachShared
      else
        let _ ← Action.change (·.detachBuffer o)

/-- Resizes a buffer in place. -/
def resizeBuffer [Embedding σ] (o : ObjectId) (length : UInt64) : Action σ Unit := do
  Action.settle
  let w ← get
  match w.buffer? o with
  | none => Action.fail .notResizable
  | some b =>
      let (outcome, resized, ledger, memory) := b.resize length w.ledger w.memory
      set { w.setBuffer o resized with ledger, memory }
      Action.ofExcept outcome

end Engine

end EcmaCore
