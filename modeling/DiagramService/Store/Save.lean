import DiagramService.Render.Invocation
import DiagramService.Store.Basic

/-!
# Saving a diagram

A save claims an id by making its source file, which has to be new. An id whose file is there
already is passed over, up to a limit. Then the renderer is invoked on the source. If that fails,
the files of the record are removed again. The id counts as pending from before its file is made
until the save is over. Each operation is a step of its own.
-/

namespace DiagramService

/-- How many ids a save tries. -/
def maxClaims : Nat := 64

/-- All ids that were tried are taken. -/
def noFreeId : IoError :=
  .worded .alreadyExists ("no free diagram id after " ++ Text.natText maxClaims ++ " attempts")

/-- A text on its way to a record. -/
structure Save where
  config : RendererConfig
  text : String
deriving DecidableEq, Repr

namespace Save

/-- What comes next. -/
inductive Phase where
  | makeDir
  /-- Takes an id, if any of the given number of tries is left. -/
  | draw (tries : Nat)
  /-- Marks the id as pending. -/
  | mark (tries : Nat) (record : SavedDiagram)
  /-- Makes the source. -/
  | claim (tries : Nat) (record : SavedDiagram)
  /-- Gives up an id that is taken. -/
  | release (tries : Nat) (record : SavedDiagram)
  | invoke (record : SavedDiagram) (phase : Invocation.Phase)
  | relocate (record : SavedDiagram)
  /-- Removes what is left of a save that failed. -/
  | discard (record : SavedDiagram) (paths : List Path) (error : RenderError)
  | unmark (record : SavedDiagram) (result : Except RenderError SavedDiagram)
  | done (result : Except RenderError SavedDiagram)

/-- The files of a record as the renderer sees them. -/
def filesOf (record : SavedDiagram) : DiagramFiles :=
  .forSource record.source

/-- The run of the renderer on a record. -/
def invocation (s : Save) (record : SavedDiagram) : Invocation :=
  ⟨s.config, s.text, filesOf record⟩

/-- The files that a save which failed may leave. -/
def leftovers (record : SavedDiagram) : List Path :=
  [record.source, (filesOf record).image, record.image]

/-- Removes the files of a record after an error. -/
def giveUp (record : SavedDiagram) (error : RenderError) : Phase :=
  .discard record (leftovers record) error

/-- What comes after a phase of the invocation. -/
def goOn (record : SavedDiagram) : Invocation.Phase → Phase
  | .done (.ok _) => .relocate record
  | .done (.error error) => giveUp record error
  | phase => .invoke record phase

/-- Makes the source of a record. -/
def claim (tries : Nat) (record : SavedDiagram) (d : Disk) (now : Int) : Phase × Disk :=
  match d.createNew record.source now with
  | (.ok (), d) => (.invoke record .write, d)
  | (.error e, d) =>
    if e.kind = .alreadyExists then (.release tries record, d)
    else (.unmark record (.error (.io e)), d)

/-- Moves the image to where it belongs, if the renderer has written it elsewhere. -/
def relocate (record : SavedDiagram) (d : Disk) : Phase × Disk :=
  if (filesOf record).image.same record.image then (.unmark record (.ok record), d)
  else
    match d.rename (filesOf record).image record.image with
    | (.ok (), d) => (.unmark record (.ok record), d)
    | (.error e, d) => (giveUp record (.io e), d)

/-- The next step. There is none while the renderer runs and at the end. -/
def step (s : Save) (phase : Phase) (store : Store) (d : Disk) (now : Int) :
    Phase × Store × Disk :=
  match phase with
  | .makeDir =>
    match d.makeDirs store.dir with
    | (.ok (), d) => (.draw maxClaims, store, d)
    | (.error e, d) => (.done (.error (.io e)), store, d)
  | .draw 0 => (.done (.error (.io noFreeId)), store, d)
  | .draw (tries + 1) =>
    let issued := store.issue now
    (.mark tries (store.record issued.1), issued.2, d)
  | .mark tries record => (.claim tries record, store.mark record.id, d)
  | .claim tries record =>
    let next := claim tries record d now
    (next.1, store, next.2)
  | .release tries record => (.draw tries, store.unmark record.id, d)
  | .invoke record phase =>
    let next := (s.invocation record).step phase d now
    (goOn record next.1, store, next.2)
  | .relocate record =>
    let next := relocate record d
    (next.1, store, next.2)
  | .discard record [] error => (.unmark record (.error error), store, d)
  | .discard record (path :: paths) error =>
    (.discard record paths error, store, (d.removeFile path).2)
  | .unmark record result => (.done result, store.unmark record.id, d)
  | .done result => (.done result, store, d)

/-- The phase after the end of a run has been heard of. -/
def hear (s : Save) (phase : Phase) (outcome : RunOutcome) : Phase :=
  match phase with
  | .invoke record phase => goOn record ((s.invocation record).hear phase outcome)
  | phase => phase

/-- The source that the renderer is to run on. -/
def waiting? : Phase → Option Path
  | .invoke record .run => some record.source
  | _ => none

/-- The result at the end. Before it there is none. -/
def result? : Phase → Option (Except RenderError SavedDiagram)
  | .done result => some result
  | _ => none

/-- Claims an id at once, if any of the given number of tries is left. The clock shows the values of
`clock`, one for each try. -/
def claimWithin : Nat → Store → Disk → (Nat → Int) → Except IoError SavedDiagram × Store × Disk
  | 0, store, d, _ => (.error noFreeId, store, d)
  | tries + 1, store, d, clock =>
    let issued := store.issue (clock 0)
    let record := store.record issued.1
    let marked := issued.2.mark record.id
    match d.createNew record.source (clock 0) with
    | (.ok (), d) => (.ok record, marked, d)
    | (.error e, d) =>
      if e.kind = .alreadyExists then
        claimWithin tries (marked.unmark record.id) d fun n => clock (n + 1)
      else (.error e, marked.unmark record.id, d)

/-- Removes files, whether they are there or not. -/
def removeAll (d : Disk) (paths : List Path) : Disk :=
  paths.foldl (fun d path => (d.removeFile path).2) d

/-- Renders a record whose id has been claimed. -/
def render (s : Save) (renderer : Renderer) (record : SavedDiagram) (d : Disk) (now : Int) :
    Except RenderError Unit × Disk :=
  match (s.invocation record).perform renderer d now with
  | (.error error, d) => (.error error, d)
  | (.ok _, d) =>
    if (filesOf record).image.same record.image then (.ok (), d)
    else
      match d.rename (filesOf record).image record.image with
      | (.ok (), d) => (.ok (), d)
      | (.error e, d) => (.error (.io e), d)

/-- All steps one after another, without anything in between. -/
def perform (s : Save) (renderer : Renderer) (store : Store) (d : Disk) (clock : Nat → Int) :
    Except RenderError SavedDiagram × Store × Disk :=
  match d.makeDirs store.dir with
  | (.error e, d) => (.error (.io e), store, d)
  | (.ok (), d) =>
    match claimWithin maxClaims store d clock with
    | (.error e, store, d) => (.error (.io e), store, d)
    | (.ok record, store, d) =>
      match s.render renderer record d (clock maxClaims) with
      | (.ok (), d) => (.ok record, store.unmark record.id, d)
      | (.error error, d) =>
        (.error error, store.unmark record.id, removeAll d (leftovers record))

end Save

end DiagramService
