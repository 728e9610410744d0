import EcmaCore.Describe
import EcmaCore.Handles
import EcmaCore.Program
import EcmaCore.Proofs.Guarantee.Basic
import EcmaCore.Proofs.Guarantee.Engine
import EcmaCore.Proofs.Guarantee.Builtin
import EcmaCore.Proofs.Guarantee.Scope
import EcmaCore.Proofs.Guarantee.Program
import EcmaCore.Proofs.Object.Keeps
import EcmaCore.Proofs.World.Keeps
import EcmaCore.Proofs.World.Scopes
import EcmaCore.Proofs.World.Functions
import EcmaCore.Proofs.Buffer
import EcmaCore.Proofs.World.Accounted
import EcmaCore.Proofs.World.Departs
import EcmaCore.Proofs.World.Settle
import EcmaCore.Proofs.Program.HeapAccount
import EcmaCore.Proofs.Builtin.Slice
import EcmaCore.Proofs.Scope.ImportChain
import EcmaCore.Proofs.Scope.Slots
import EcmaCore.Proofs.Scope.ImportName
import EcmaCore.Proofs.Scope.Probe
import EcmaCore.Script
import EcmaCore.Proofs.Program.Checked
import EcmaCore.Proofs.Program.Contexts
import EcmaCore.Proofs.Program.BoundChain
import EcmaCore.Proofs.Scope.LifeCycle
import EcmaCore.Proofs.World.Reaches
import EcmaCore.Proofs.Program.Entry
import EcmaCore.Proofs.Scope.This
import EcmaCore.Proofs.Program.This
import EcmaCore.Proofs.Program.NewTarget
import EcmaCore.Proofs.Double
import EcmaCore.Proofs.World.Buffers
import EcmaCore.Proofs.Builtin.Buffer
import EcmaCore.Proofs.Program.BufferLife
import EcmaCore.Proofs.Object.Define
import EcmaCore.Proofs.Object.Standard
import EcmaCore.Proofs.Object.Overlooked
import EcmaCore.Proofs.World.Lookup
import EcmaCore.Proofs.Object.Assign
import EcmaCore.Proofs.Scope.Assign
import EcmaCore.Proofs.Scope.Declarations
import EcmaCore.Proofs.Builtin.Construct
import EcmaCore.Proofs.Builtin.Resize
import EcmaCore.Proofs.World.Held
import EcmaCore.Proofs.World.GiveUp
import EcmaCore.Proofs.Agreement
import EcmaCore.Proofs.World.Outward
import EcmaCore.Proofs.Scope.Delete
import EcmaCore.Proofs.Scope.Split
import EcmaCore.Proofs.Scope.SplitNames
import EcmaCore.Proofs.Scope.GlobalScope
import EcmaCore.Proofs.Program.Reservations
import EcmaCore.Proofs.Program.Construction
import EcmaCore.Proofs.Integer
import EcmaCore.Proofs.World.Prototypes
import EcmaCore.Proofs.Builtin.Bind
import EcmaCore.Proofs.Program.Forwarding
import EcmaCore.Proofs.Object.Repeat
import EcmaCore.Proofs.Number.IntegerPart
import EcmaCore.Proofs.Number.Index
import EcmaCore.Proofs.Number.Bits
import EcmaCore.Proofs.Number.Equality
import EcmaCore.Proofs.Number.Literal
import EcmaCore.Proofs.Number.Nearest
import EcmaCore.Proofs.Number.Radix
import EcmaCore.Proofs.Number.Numeral
import EcmaCore.Proofs.Conversion
import EcmaCore.Proofs.Scope.ProbeFlags
import EcmaCore.Proofs.Scope.ImportCycle
import EcmaCore.Proofs.World.Extent
import EcmaCore.Proofs.World.Closed
import EcmaCore.Proofs.Grounded.Basic
import EcmaCore.Proofs.Grounded.Engine
import EcmaCore.Proofs.Grounded.Builtin
import EcmaCore.Proofs.Grounded.Scope
import EcmaCore.Proofs.Grounded.Program
import EcmaCore.Proofs.Program.PrototypeChains
