import DiagramService.Render.Invocation

/-!
# Watching the renderer

The renderer leads a group of processes. Its leader is waited for, at most until its time is over,
and then the whole group is killed, whatever was heard of the leader and even if it could not be
waited for. After that a leader that outlived its time is reaped, or what was printed is collected,
and the outcome is told. So no process of the group is left when the invocation goes on.
-/

namespace DiagramService

/-- What the processes of a renderer have printed. -/
structure Printout where
  output : Bytes
  errors : Bytes
deriving DecidableEq, Repr

/-- What came of waiting for the leader of a group. -/
inductive Waited where
  /-- It ended with a code, or by a signal. -/
  | exited (code : Option Int)
  | failed (cause : IoError)
  /-- Its time was over first. -/
  | expired
deriving DecidableEq, Repr

/-- How far the run of a renderer is. -/
inductive Supervision (γ : Type) where
  /-- There is none yet, or its outcome has been told. -/
  | idle
  /-- The group is at work. -/
  | watch (group : γ)
  /-- The wait is over, and the group is still at work. -/
  | kill (group : γ) (waited : Waited)
  /-- A leader that was killed is waited for. -/
  | reap
  /-- What is in the pipes is collected. -/
  | collect (code : Option Int) (printed : Printout)
  | over (outcome : RunOutcome)

namespace Supervision

variable {γ : Type}

/-- The group that is at work. -/
def group? : Supervision γ → Option γ
  | .watch group => some group
  | .kill group _ => some group
  | _ => none

/-- The run of a renderer that was started. -/
def ofStart : Except IoError γ → Supervision γ
  | .ok group => .watch group
  | .error cause => .over (.notStarted cause)

/-- What comes after the kill of a group that has printed something. -/
def killed (printed : Printout) : Waited → Supervision γ
  | .exited code => .collect code printed
  | .failed cause => .over (.lost cause)
  | .expired => .reap

/-- What comes after the pipes were read. What was printed as output is not kept. -/
def collected (code : Option Int) : Except IoError Printout → Supervision γ
  | .ok printed => .over (.ended code printed.errors)
  | .error cause => .over (.lost cause)

/-- What comes after the killed leader has been reaped. -/
def reaped : Supervision γ :=
  .over .outlived

end Supervision

/-- The outcome of a run whose pipes can be read. -/
def Waited.outcome (printed : Printout) : Waited → RunOutcome
  | .exited code => .ended code printed.errors
  | .failed cause => .lost cause
  | .expired => .outlived

end DiagramService
