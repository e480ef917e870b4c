import DiagramService.Config.Basic
import DiagramService.Diagram.Files
import DiagramService.Disk.Operation
import DiagramService.Error.Render

/-!
# One run of the renderer

An invocation writes the text to the source file, removes an image that an earlier run has left,
runs the renderer, and reads the image that it has made. Each of these is a step of its own, so that
the steps of several invocations can be mixed. While the renderer runs the invocation waits to hear
how the run ended; the renderer does nothing any more after that.
-/

namespace DiagramService

/-- How a run of the renderer ended. -/
inductive RunOutcome where
  | notStarted (cause : IoError)
  /-- It was still running at the end of its time. -/
  | outlived
  /-- It was not learned how it ended, or what it had written. -/
  | lost (cause : IoError)
  /-- It ended with a code, or by a signal, and had written this to its stream for errors. -/
  | ended (code : Option Int) (errors : Bytes)
deriving DecidableEq, Repr

/-- What a renderer does to the disk when it is run on a source, and how it ends. -/
abbrev Renderer := Path → Disk → RunOutcome × Disk

/-- What a renderer has complained about, as it is kept. -/
def complaint (errors : Bytes) : String :=
  Text.trim (Utf8.decodeLossy errors)

/-- A text on its way to an image. -/
structure Invocation where
  config : RendererConfig
  text : String
  files : DiagramFiles
deriving DecidableEq, Repr

namespace Invocation

/-- What comes next. -/
inductive Phase where
  | write
  | clear
  | run
  | read
  | done (result : Except RenderError Bytes)

/-- The error of an operation on files. -/
def failed (cause : IoError) : Phase :=
  .done (.error (.io cause))

/-- Writes the text to the source file. -/
def write (i : Invocation) (d : Disk) (now : Int) : Phase × Disk :=
  match d.writeFile i.files.source (Utf8.encode i.text) now with
  | (.ok (), d) => (.clear, d)
  | (.error e, d) => (failed e, d)

/-- Removes the image if there is one. -/
def clear (i : Invocation) (d : Disk) : Phase × Disk :=
  match d.removeFile i.files.image with
  | (.ok (), d) => (.run, d)
  | (.error e, d) => if e.kind = .notFound then (.run, d) else (failed e, d)

/-- Reads the image. -/
def read (i : Invocation) (d : Disk) : Except RenderError Bytes :=
  match d.contentAt i.files.image with
  | .ok content => .ok content
  | .error e =>
    .error (if e.kind = .notFound then .outputMissing i.files.image else .io e)

/-- What comes after the run of the renderer. -/
def afterRun (i : Invocation) : RunOutcome → Phase
  | .notStarted cause => .done (.error (.spawnFailure i.config.command cause))
  | .outlived => .done (.error (.timeout (.ofSeconds i.config.timeoutSeconds.toNat)))
  | .lost cause => failed cause
  | .ended code errors =>
    if code = some 0 then .read else .done (.error (.toolFailure code (complaint errors)))

/-- The next operation on files. There is none while the renderer runs and at the end. -/
def step (i : Invocation) (phase : Phase) (d : Disk) (now : Int) : Phase × Disk :=
  match phase with
  | .write => i.write d now
  | .clear => i.clear d
  | .read => (.done (i.read d), d)
  | .run => (.run, d)
  | .done result => (.done result, d)

/-- The phase after the end of a run has been heard of. -/
def hear (i : Invocation) (phase : Phase) (outcome : RunOutcome) : Phase :=
  match phase with
  | .run => i.afterRun outcome
  | phase => phase

/-- Runs the renderer if it is its turn. -/
def run (i : Invocation) (renderer : Renderer) (phase : Phase) (d : Disk) : Phase × Disk :=
  match phase with
  | .run =>
    let r := renderer i.files.source d
    (i.afterRun r.1, r.2)
  | phase => (phase, d)

/-- All steps up to the run of the renderer. -/
def prepare (i : Invocation) (d : Disk) (now : Int) : Phase × Disk :=
  let w := i.write d now
  i.step w.1 w.2 now

/-- The result at the end. Before it there is none. -/
def Phase.result? : Phase → Option (Except RenderError Bytes)
  | .done result => some result
  | _ => none

/-- All steps one after another, without anything in between. -/
def perform (i : Invocation) (renderer : Renderer) (d : Disk) (now : Int) :
    Except RenderError Bytes × Disk :=
  let prepared := i.prepare d now
  let ran := i.run renderer prepared.1 prepared.2
  match ran.1 with
  | .done result => (result, ran.2)
  | _ => (i.read ran.2, ran.2)

end Invocation

end DiagramService
