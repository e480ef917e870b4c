import DiagramService.Render.Supervision

/-!
# The course of a run

What a renderer does is a matter of time: the longer it is left alone, the more it has done to the
disk and has printed, and at some time it may end by itself. It is waited for until then, at most
until its time is over, and does nothing any more after that. Without a limit there may be no end to
the wait, and then an invocation comes to nothing.
-/

namespace DiagramService

/-- What a renderer does as long as it is left alone. Times are in milliseconds since its start. -/
structure Course where
  /-- When it ends by itself, with a code or by a signal. -/
  ending? : Option (Nat × Option Int)
  disk : Nat → Disk
  printed : Nat → Printout

/-- What comes of starting a program with its arguments on a disk. -/
abbrev System := String → List String → Disk → Except IoError Course

namespace Course

/-- How a renderer has ended, if it has ended by a time. -/
def ended? (course : Course) (time : Nat) : Option (Option Int) :=
  match course.ending? with
  | some (ending, code) => if ending ≤ time then some code else none
  | none => none

/-- What has come of the wait by a time, if it is over. The limit is in seconds. -/
def waited? (course : Course) (limit? : Option Nat) (time : Nat) : Option Waited :=
  match course.ended? time with
  | some code => some (.exited code)
  | none => if limit?.any (1000 * · ≤ time) then some .expired else none

/-- When the wait is over and what has come of it, if there is an end to it. -/
def wait? (course : Course) (limit? : Option Nat) : Option (Nat × Waited) :=
  match course.ending?, limit? with
  | none, none => none
  | none, some limit => some (1000 * limit, .expired)
  | some (time, code), none => some (time, .exited code)
  | some (time, code), some limit =>
    if time ≤ 1000 * limit then some (time, .exited code) else some (1000 * limit, .expired)

end Course

namespace RendererConfig

/-- Starts the renderer on a source. -/
def launch (config : RendererConfig) (system : System) (source : Path) (d : Disk) :
    Except IoError Course :=
  system config.command (config.args ++ [source.toString]) d

/-- What is learned of a renderer and what it leaves, if there is an end to the wait. -/
def follow? (config : RendererConfig) (course : Course) : Option (RunOutcome × Disk) :=
  (course.wait? config.limit?).map fun (time, waited) =>
    (waited.outcome (course.printed time), course.disk time)

/-- Runs the renderer on a source. -/
def run? (config : RendererConfig) (system : System) (source : Path) (d : Disk) :
    Option (RunOutcome × Disk) :=
  match config.launch system source d with
  | .error cause => some (.notStarted cause, d)
  | .ok course => config.follow? course

end RendererConfig

namespace Invocation

/-- The result after the run of the renderer. -/
def finish (i : Invocation) (phase : Phase) (d : Disk) : Except RenderError Bytes × Disk :=
  match phase with
  | .done result => (result, d)
  | _ => (i.read d, d)

/-- All steps one after another. There is no result if there is no end to the wait. -/
def perform? (i : Invocation) (system : System) (d : Disk) (now : Int) :
    Option (Except RenderError Bytes × Disk) :=
  match i.prepare d now with
  | (.run, d) =>
    (i.config.run? system i.files.source d).map fun (outcome, d) => i.finish (i.afterRun outcome) d
  | (phase, d) => some (i.finish phase d)

/-- The result, if there is no lack of an end. -/
def result? (i : Invocation) (system : System) (d : Disk) (now : Int) :
    Option (Except RenderError Bytes) :=
  (i.perform? system d now).map Prod.fst

end Invocation

end DiagramService
