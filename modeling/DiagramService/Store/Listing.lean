import DiagramService.Disk.Operation
import DiagramService.Store.Basic

/-!
# Listing saved diagrams

A listing reads the names in the save directory and then looks at each name that belongs to a
record: first whether the record is still being saved, then whether its image is there. Each look is
a step of its own. The newest records come first.
-/

namespace DiagramService

/-- A record that was found. -/
structure SavedEntry where
  record : SavedDiagram
  hasImage : Bool
deriving DecidableEq, Repr

namespace Listing

/-- The id in the name of a source file. -/
def idOf? (name : FileName) : Option DiagramId :=
  if FileName.extension? name = some sourceExtension then DiagramId.ofFileName? name else none

/-- The entries with the newest first. Entries with the same id stay in order. -/
def sort (entries : List SavedEntry) : List SavedEntry :=
  entries.mergeSort fun a b => b.record.id.value ≤ a.record.id.value

/-- What comes next. -/
inductive Phase where
  | names
  /-- The names that have not been looked at, and the entries found so far, the last one first. -/
  | visit (names : List FileName) (found : List SavedEntry)
  /-- Looks for the image of a record. -/
  | check (name : FileName) (id : DiagramId) (names : List FileName) (found : List SavedEntry)
  | done (result : Except IoError (List SavedEntry))

/-- The names of a directory. A missing directory has none. -/
def start (dir : Path) (d : Disk) : Phase :=
  match d.readDir dir with
  | .ok names => .visit names []
  | .error e => if e.kind = .notFound then .done (.ok []) else .done (.error e)

/-- Whether the image that belongs to a source in a directory is there. -/
def hasImage (dir : Path) (name : FileName) (d : Disk) : Bool :=
  d.has (renderedImagePath (dir.join name))

/-- The next step. -/
def step (phase : Phase) (store : Store) (d : Disk) : Phase :=
  match phase with
  | .names => start store.dir d
  | .visit [] found => .done (.ok (sort found.reverse))
  | .visit (name :: names) found =>
    match idOf? name with
    | some id => if store.isPending id then .visit names found else .check name id names found
    | none => .visit names found
  | .check name id names found =>
    .visit names (⟨store.record id, hasImage store.dir name d⟩ :: found)
  | .done result => .done result

/-- The result at the end. Before it there is none. -/
def result? : Phase → Option (Except IoError (List SavedEntry))
  | .done result => some result
  | _ => none

/-- The entry of a name, if it belongs to a record that is not being saved. -/
def found? (store : Store) (d : Disk) (name : FileName) : Option SavedEntry :=
  (idOf? name).bind fun id =>
    if store.isPending id then none else some ⟨store.record id, hasImage store.dir name d⟩

/-- All steps one after another, without anything in between. -/
def perform (store : Store) (d : Disk) : Except IoError (List SavedEntry) :=
  match d.readDir store.dir with
  | .ok names => .ok (sort (names.filterMap (found? store d)))
  | .error e => if e.kind = .notFound then .ok [] else .error e

end Listing

end DiagramService
