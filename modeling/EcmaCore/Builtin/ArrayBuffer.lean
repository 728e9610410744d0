import EcmaCore.Engine.Buffer

/-!
# The constructor and the methods of array buffers

Every method checks its receiver first and looks at the buffer again after each
step that may run user code: the conversion of an argument, or the species
constructor of `slice`. The receiver and the arguments are held on to until the
method is over.
-/

namespace EcmaCore.Engine

variable {σ : Type}

/-- Creates a buffer from the arguments of a construction, a length and options. The length is
converted before the options are read. -/
def constructBuffer [Embedding σ] (E : Engine σ) (args : List Value) (newTarget : ObjectId) :
    Action σ Value :=
  Action.holding (.object newTarget :: args.flatMap Value.entities) do
    let length ← E.toIndex (args.getD 0 .undefined)
    let maximum ← E.maximumOption (args.getD 1 .undefined)
    return .object (← E.allocateBuffer newTarget length maximum)

/-- The buffer that a method was called on, which must not be shared. -/
def thisBuffer (this : Value) (method : String) : Action σ (ObjectId × Buffer) := do
  let w ← get
  match this with
  | .object o =>
      match w.buffer? o with
      | some b =>
          if b.shared then Action.fail (.incompatibleReceiver method (w.display this))
          else return (o, b)
      | none => Action.fail (.incompatibleReceiver method (w.display this))
  | _ => Action.fail (.incompatibleReceiver method (w.display this))

/-! ## Getters -/

/-- The length of a buffer. -/
def bufferByteLength (this : Value) : Action σ Value := do
  let (_, b) ← thisBuffer this "byteLength"
  return .ofSize b.length

/-- Whether a buffer is detached. -/
def bufferDetached (this : Value) : Action σ Value := do
  let (_, b) ← thisBuffer this "detached"
  return .boolean b.isDetached

/-- The length that a buffer can grow to: its own when it is fixed, zero when it is detached. -/
def bufferMaxByteLength (this : Value) : Action σ Value := do
  let (_, b) ← thisBuffer this "maxByteLength"
  return .ofSize (if b.isDetached then 0 else b.maximum.getD b.length)

/-- Whether a buffer can be resized. -/
def bufferResizable (this : Value) : Action σ Value := do
  let (_, b) ← thisBuffer this "resizable"
  return .boolean (!b.isFixed)

/-! ## Resizing -/

/-- Resizes a buffer. The length is converted first, then the buffer is examined. -/
def bufferResize [Embedding σ] (E : Engine σ) (this : Value) (args : List Value) :
    Action σ Value :=
  Action.holding ((this :: args).flatMap Value.entities) do
    let (o, _) ← thisBuffer this "resize"
    let length ← E.toIndex (args.getD 0 .undefined)
    let (_, b) ← thisBuffer this "resize"
    if b.isDetached then Action.fail (.detachedReceiver "resize")
    else
      match b.maximum with
      | none => Action.fail .resizeMethodFixed
      | some maximum =>
          if maximum < length then Action.fail (.resizeMethodBeyondMaximum length maximum)
          else
            resizeBuffer o length
            return .undefined

/-! ## Slicing -/

/-- A position in a block of a length: one that is negative counts from the end, and all are
clamped into the block. -/
def relativeIndex (position : Double) (length : Nat) : Nat :=
  match position with
  | .nan => 0
  | .infinity negative => if negative then 0 else length
  | x =>
      let i := x.toInt?.getD 0
      if i < 0 then (length + i).toNat else Nat.min i.toNat length

/-- Copies a part of one buffer to the start of another one, as far as the source reaches. -/
def copySlice (source target : ObjectId) (first count : Nat) : Action σ Unit := do
  let w ← get
  match (w.buffer? source).bind (·.block) with
  | none => Action.fail (.detachedReceiver "slice")
  | some bytes => set (w.fillBuffer target 0 ((bytes.drop first).take count))

/-- Checks what a species constructor returned for a slice of so many bytes. -/
def checkSlice (source : ObjectId) (result : Value) (count : Nat) : Action σ ObjectId := do
  match result with
  | .object o =>
      match (← get).buffer? o with
      | none => Action.fail .speciesNotBuffer
      | some b =>
          if b.shared then Action.fail .speciesNotBuffer
          else if b.isDetached then Action.fail .speciesDetached
          else if o = source then Action.fail .speciesSame
          else if b.bytes.length < count then
            Action.fail (.speciesShort b.length (UInt64.ofNat count))
          else return o
  | _ => Action.fail .speciesNotBuffer

/-- The position in a block of a length that an argument gives. -/
def slicePosition (E : Engine σ) (v : Value) (length : Nat) : Action σ Nat := do
  return relativeIndex (← E.toIntegerOrInfinity v) length

/-- The end of a slice of a block of a length: that of the block where no argument gives one. -/
def sliceEnd (E : Engine σ) (v : Value) (length : Nat) : Action σ Nat :=
  if v.isUndefined then return length else E.slicePosition v length

/-- What the species constructor of a buffer returns for a slice of so many bytes. -/
def sliceResult (E : Engine σ) (source : ObjectId) (count : Nat) : Action σ Value := do
  let constructor ← E.speciesConstructor source (← get).realm.arrayBuffer
  (E.construct constructor [.ofSize (UInt64.ofNat count)] constructor).holding
    [.object constructor]

/-- Creates a buffer with a copy of a part of the receiver, by the receiver's species
constructor. -/
def bufferSlice (E : Engine σ) (this : Value) (args : List Value) : Action σ Value :=
  Action.holding ((this :: args).flatMap Value.entities) do
    let (o, b) ← thisBuffer this "slice"
    if b.isDetached then Action.fail (.detachedReceiver "slice")
    else
      let first ← E.slicePosition (args.getD 0 .undefined) b.bytes.length
      let final ← E.sliceEnd (args.getD 1 .undefined) b.bytes.length
      let result ← E.sliceResult o (final - first)
      let new ← checkSlice o result (final - first)
      copySlice o new first (final - first)
      return .object new

end EcmaCore.Engine
