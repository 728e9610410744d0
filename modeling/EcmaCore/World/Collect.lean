import EcmaCore.World.Basic

/-!
# Giving back what nothing refers to

Entities are kept by the references to them: an entity goes when nothing that
is still kept refers to it, and what only it referred to goes with it. A cycle
of references keeps itself. What goes matters in two ways: a buffer gives its
bytes back to the ledger, and a module is no longer available to importers.

Kept from the start are the realms, the running contexts, what operations in
progress hold, and what the embedding program holds, which an instance of
`Embedding` tells.

Nobody can see an entity go but through the ledger and the availability of
modules. So a world is settled, by `World.settle`, where one of the two is
looked at, and nowhere else.
-/

namespace EcmaCore

/-- The entities that a value refers to. -/
def Value.entities : Value → List Entity
  | .object o => [.object o]
  | _ => []

/-- The entities that a property refers to. -/
def Property.entities : Property → List Entity
  | .data v _ _ _ => v.entities
  | .accessor getter setter _ _ => (getter.toList ++ setter.toList).map .object

/-- The entities that a function refers to. -/
def Function.entities : Function → List Entity
  | .ordinary f => [.scope f.scope]
  | .native _ => []
  | .bound f => .object f.target :: (f.boundThis :: f.boundArgs).flatMap Value.entities

/-- The entities that an object refers to. -/
def Object.entities (o : Object) : List Entity :=
  o.prototype.toList.map .object ++ o.properties.entries.flatMap (·.2.entities) ++
    (o.function?.map Function.entities).getD []

/-- The entities that declared bindings refer to. -/
def Bindings.entities (bs : Bindings) : List Entity :=
  bs.entries.flatMap fun (_, b) => (b.value.map Value.entities).getD []

/-- The entities that an environment record refers to. Imports do not keep their modules. -/
def Record.entities (r : Record) : List Entity :=
  r.slots.entities ++
    (match r with
      | .object backing _ => [.object backing]
      | .function _ info =>
          .object info.function :: info.newTarget.toList.map .object ++
            (info.this.map Value.entities).getD []
      | .global _ info => [.object info.object, .object info.this]
      | .declarative _ | .module .. => [])

/-- The entities that a realm refers to. -/
def Realm.entities (r : Realm) : List Entity :=
  .scope r.scope ::
    ([r.objectPrototype, r.functionPrototype, r.throwTypeError, r.arrayBuffer,
      r.arrayBufferPrototype, r.global].map .object)

/-- The entities that an execution context refers to. -/
def Context.entities (c : Context) : List Entity :=
  .scope c.lexicalScope :: .scope c.variableScope :: c.function.toList.map .object

/-- What an embedding program holds on to, read off what it keeps in the world. -/
class Embedding (σ : Type) where
  roots : σ → List Entity

/-- A program that keeps nothing holds on to nothing. -/
instance : Embedding Unit := ⟨fun _ => []⟩

/-! ## Counting references -/

/-- How often each entity is referred to, by kind and number. -/
structure Census where
  objects : Array Nat
  scopes : Array Nat
  modules : Array Nat

namespace Census

/-- No references to any of so many objects, environments and modules. -/
def empty (objects scopes modules : Nat) : Census :=
  ⟨Array.replicate objects 0, Array.replicate scopes 0, Array.replicate modules 0⟩

/-- The references to an entity. -/
def count (c : Census) : Entity → Nat
  | .object o => c.objects.getD o.index 0
  | .scope s => c.scopes.getD s.index 0
  | .module m => c.modules.getD m.index 0

/-- Changes the number of references to an entity. -/
def modify (c : Census) (f : Nat → Nat) : Entity → Census
  | .object o => { c with objects := c.objects.modify o.index f }
  | .scope s => { c with scopes := c.scopes.modify s.index f }
  | .module m => { c with modules := c.modules.modify m.index f }

/-- Enters references. -/
def addAll (c : Census) (references : List Entity) : Census :=
  references.foldl (·.modify (· + 1)) c

/-- Takes one reference out and adds its entity to a list if it was the last one. -/
def remove (state : Census × List Entity) (e : Entity) : Census × List Entity :=
  (state.1.modify (· - 1) e, if state.1.count e = 1 then e :: state.2 else state.2)

/-- Takes references out and lists the entities that lost their last one. -/
def removeAll (c : Census) (references : List Entity) : Census × List Entity :=
  references.foldl remove (c, [])

end Census

namespace World

variable {σ : Type}

/-! ## Keeping and going -/

/-- The entities that an entity refers to. -/
def references (w : World σ) : Entity → List Entity
  | .object o => (w.object o).entities
  | .scope s => (w.scope s).outer.toList.map .scope ++ (w.scope s).record.entities
  | .module m =>
      match (w.module m).source with
      | .linked s => [.scope s]
      | .code _ => []

/-- All entities of a world. -/
def entities (w : World σ) : List Entity :=
  (List.range w.objects.size).map (fun i => .object ⟨i⟩) ++
    (List.range w.scopes.size).map (fun i => .scope ⟨i⟩) ++
    (List.range w.modules.size).map (fun i => .module ⟨i⟩)

/-- The entities that the world itself keeps. -/
def ownRoots (w : World σ) : List Entity :=
  w.held ++ w.contexts.flatMap Context.entities ++ (w.realm :: w.otherRealms).flatMap Realm.entities

/-- How often each entity is referred to when the embedding program holds on to `roots`. -/
def census (w : World σ) (roots : List Entity) : Census :=
  (w.entities.map w.references).foldl Census.addAll
    (((Census.empty w.objects.size w.scopes.size w.modules.size).addAll w.ownRoots).addAll roots)

/-- The entities that go when those of a list, which nothing refers to, do: each takes its
references with it, and what is left without any goes next. Each entity goes at most once. -/
def departures (w : World σ) (counts : Census) : Nat → List Entity → List Entity
  | 0, _ => []
  | _ + 1, [] => []
  | left + 1, e :: pending =>
      let (counts, freed) := counts.removeAll (w.references e)
      e :: w.departures counts left (freed ++ pending)

/-- The entities that nothing keeps when the embedding program holds on to `roots`. -/
def unreferenced (w : World σ) (roots : List Entity) : List Entity :=
  let counts := w.census roots
  w.departures counts w.entities.length (w.entities.filter (counts.count · == 0))

/-- Gives up an entity: a charged buffer its block with the bytes reserved for it, a module its
availability. -/
def giveUp (w : World σ) : Entity → World σ
  | .object o =>
      match (w.object o).nature with
      | .buffer b =>
          match b.reserved with
          | some _ =>
              let (gone, ledger) := b.detach w.ledger
              { w.modifyObject o ({ · with nature := .buffer gone }) with ledger }
          | none => w
      | _ => w
  | .scope _ => w
  | .module m => { w with modules := w.modules.modify m.index ({ · with available := false }) }

/-- Whether anything of a world would be missed: a buffer with reserved bytes or an available
module. -/
def hasLosses (w : World σ) : Bool :=
  w.objects.any (fun o => o.buffer?.any (·.reserved.isSome)) || w.modules.any (·.available)

/-- Gives up the entities that nothing keeps while the embedding program holds on to `roots`. -/
def collect (w : World σ) (roots : List Entity) : World σ :=
  if w.hasLosses then (w.unreferenced roots).foldl giveUp w else w

/-- A world without what nothing refers to any more. -/
def settle [Embedding σ] (w : World σ) : World σ := w.collect (Embedding.roots w.host)

end World

end EcmaCore
