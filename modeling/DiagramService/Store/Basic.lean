import DiagramService.Diagram.Files
import DiagramService.Diagram.IdSource

/-!
# The store of saved diagrams

A store keeps its records as pairs of files in one directory. Besides the directory it knows the ids
that it has issued and those of saves that are not finished, which no listing shows.
-/

namespace DiagramService

/-- The time in milliseconds as an id. -/
def clockId (now : Int) : Int64 :=
  Int64.ofInt now

/-- The state of a store. -/
structure Store where
  dir : Path
  ids : IdSource
  pending : List DiagramId
deriving DecidableEq, Repr

namespace Store

/-- A store that has done nothing yet. -/
def open_ (dir : Path) : Store :=
  ⟨dir, .fresh, []⟩

/-- The paths of the record with an id. -/
def record (store : Store) (id : DiagramId) : SavedDiagram :=
  .inDirectory store.dir id

/-- Takes the next id. -/
def issue (store : Store) (now : Int) : DiagramId × Store :=
  let next := store.ids.next (clockId now)
  (next.1, { store with ids := next.2 })

/-- Notes that the save of an id has begun. -/
def mark (store : Store) (id : DiagramId) : Store :=
  if id ∈ store.pending then store else { store with pending := id :: store.pending }

/-- Notes that the save of an id is over. -/
def unmark (store : Store) (id : DiagramId) : Store :=
  { store with pending := store.pending.filter (· ≠ id) }

/-- Whether the save of an id is not over. -/
def isPending (store : Store) (id : DiagramId) : Bool :=
  id ∈ store.pending

end Store

end DiagramService
