import DiagramService.Render.Invocation
import DiagramService.Render.Scratch

/-!
# Rendering a text

A rendering makes a scratch directory, invokes the renderer in it, and removes the directory
whatever the outcome was. That the directory could not be removed does not change the result.
-/

namespace DiagramService

/-- A text on its way to an image that is kept nowhere. -/
structure Rendering where
  config : RendererConfig
  workDir : Path
  text : String
deriving DecidableEq, Repr

namespace Rendering

/-- What comes next. -/
inductive Phase where
  | makeRoot
  | allocate
  | invoke (scratch : Scratch) (phase : Invocation.Phase)
  | close (scratch : Scratch) (result : Except RenderError Bytes)
  | done (result : Except RenderError Bytes)

/-- The run of the renderer in a scratch directory. -/
def invocation (r : Rendering) (scratch : Scratch) : Invocation :=
  ⟨r.config, r.text, scratch.files⟩

/-- What comes after a phase of the invocation. -/
def goOn (scratch : Scratch) : Invocation.Phase → Phase
  | .done result => .close scratch result
  | phase => .invoke scratch phase

/-- The next operation on files. The endings of names are drawn when a directory is made. -/
def step (r : Rendering) (phase : Phase) (endings : List (List Char)) (d : Disk) (now : Int) :
    Phase × Disk :=
  match phase with
  | .makeRoot =>
    match d.makeDirs r.workDir with
    | (.ok (), d) => (.allocate, d)
    | (.error e, d) => (.done (.error (.io e)), d)
  | .allocate =>
    match Scratch.allocateIn d (d.absolute r.workDir) endings with
    | (.ok scratch, d) => (.invoke scratch .write, d)
    | (.error e, d) => (.done (.error (.io e)), d)
  | .invoke scratch phase =>
    let next := (r.invocation scratch).step phase d now
    (goOn scratch next.1, next.2)
  | .close scratch result => (.done result, scratch.drop d)
  | .done result => (.done result, d)

/-- The phase after the end of a run has been heard of. -/
def hear (r : Rendering) (phase : Phase) (outcome : RunOutcome) : Phase :=
  match phase with
  | .invoke scratch phase => goOn scratch ((r.invocation scratch).hear phase outcome)
  | phase => phase

/-- The source that the renderer is to run on. -/
def waiting? : Phase → Option Path
  | .invoke scratch .run => some scratch.files.source
  | _ => none

/-- The result at the end. Before it there is none. -/
def result? : Phase → Option (Except RenderError Bytes)
  | .done result => some result
  | _ => none

/-- All steps one after another, without anything in between. -/
def perform (r : Rendering) (renderer : Renderer) (endings : List (List Char)) (d : Disk)
    (now : Int) : Except RenderError Bytes × Disk :=
  match Scratch.allocate d r.workDir endings with
  | (.error e, d) => (.error (.io e), d)
  | (.ok scratch, d) =>
    let invoked := (r.invocation scratch).perform renderer d now
    (invoked.1, scratch.drop invoked.2)

end Rendering

end DiagramService
