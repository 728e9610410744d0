import EcmaCore.Script

/-!
# Handles of the embedding program

What an embedding program holds on to: entities under names of its choice, and
what the user code that is running was entered with. `Handles.roots` lists the
entities that are kept for that reason when a world gives up what nothing refers
to.
-/

namespace EcmaCore

/-- What an embedding program holds on to. The running entries are listed from the innermost
outward. -/
structure Handles where
  values : Table String Value := .empty
  scopes : Table String ScopeId := .empty
  modules : Table String ModuleId := .empty
  references : Table String Reference := .empty
  reservations : Table String ReservationId := .empty
  running : List Entry := []

/-- The arguments that user code was entered with. -/
def Entry.args : Entry → List Value
  | .call _ args | .construct args _ | .body _ _ args => args
  | .readExport name strict => [.string name, .boolean strict]

/-- The entities that user code was entered with. -/
def Entry.entities (e : Entry) : List Entity :=
  e.args.flatMap Value.entities ++
    (match e with
      | .call this _ => this.entities
      | .construct _ newTarget => [.object newTarget]
      | .body f s _ => [.object f, .scope s]
      | .readExport .. => [])

namespace Handles

/-- The entries of a table that refer to entities. -/
def entriesOf {α : Type} (f : α → List Entity) (t : Table String α) : List Entity :=
  t.entries.flatMap fun (_, a) => f a

/-- All entities that the embedding program holds on to. -/
def roots (h : Handles) : List Entity :=
  entriesOf Value.entities h.values ++ entriesOf (fun s => [.scope s]) h.scopes ++
    entriesOf (fun m => [.module m]) h.modules ++
    entriesOf (fun r => r.base.toList.map .scope) h.references ++
    h.running.flatMap Entry.entities

instance : Embedding Handles := ⟨roots⟩

/-- Lets go of everything that was held under a name. -/
def forget (h : Handles) (name : String) : Handles :=
  { h with
    values := h.values.erase name
    scopes := h.scopes.erase name
    modules := h.modules.erase name
    references := h.references.erase name
    reservations := h.reservations.erase name }

/-- The environment of the innermost running body of an ordinary function. -/
def localScope? (h : Handles) : Option ScopeId :=
  h.running.findSome? fun
    | .body _ s _ => some s
    | _ => none

end Handles

end EcmaCore
