import DiagramService.Render.Supervision
import DiagramService.Shell.Run

/-!
# Groups of processes

A renderer is run as the leader of a group. What it starts in the background belongs to the group
and acts beside it. When the leader ends, by itself or by a signal, or when its time is over, the
whole group is gone and acts no more.
-/

namespace DiagramService.Shell

/-- A process in the background. -/
structure Helper where
  number : Nat
  program : Program Nat
  /-- When it goes on, if it ever does. -/
  wake : Option Int

/-- A leader and its helpers. -/
structure Group where
  leader : Program Nat
  wake : Option Int
  helpers : List Helper
  /-- When the time of the leader is over. -/
  deadline : Option Int
  buffers : Array Bytes
  count : Nat
  alive : List Nat
  signal : Option Nat

namespace Group

/-- The buffer for the output. -/
def outputBuffer : Nat := 0

/-- The buffer for the errors. -/
def errorBuffer : Nat := 1

/-- The state that a program starts in. -/
def initialShell (name : Bytes) : State where
  name := name
  params := []
  vars := []
  status := 0
  input := .null
  output := .buffer outputBuffer
  errors := .buffer errorBuffer
  dir := none
  last := 0
  breaks := 0
  exports := []
  strict := false
  tested := false

/-- The error of starting a program that is given by its path. -/
def pathError (d : Disk) (path : Path) : IoError :=
  match d.find .follow path with
  | .ok _ => .denied
  | .error e => e

/-- The program that a command names. -/
def programOf (d : Disk) (command : String) (args : List String) : Except IoError (Program Nat) :=
  if (command :: args).any fun s => s.toList.contains '\x00' then .error .zeroInArgument
  else if Disk.maxNameBytes < Disk.byteLength command.toList && !command.toList.contains '/' then
    .error .nameTooLong
  else
    let name := Utf8.encode command
    let words := args.map Utf8.encode
    match State.program? name with
    | none => .error (pathError d (.ofString command))
    | some tool =>
      if tool == lit "sh" then .ok (runShell endless (initialShell name) words)
      else if tool == lit "env" then
        .ok do return (← runCommand endless (initialShell name) 0 tool words).2.status
      else
        match tool? tool with
        | some run => .ok (run (initialShell name) words)
        | none => .error .notFound

/-- Whether a process is due. -/
def isDue (wake : Option Int) (now : Int) : Bool :=
  wake.any (· ≤ now)

/-- When a program goes on that has stopped acting. -/
def wakeOf (program : Program Nat) (now : Int) : Option Int :=
  match program with
  | .sleep (some time) _ => some (now + time)
  | _ => none

/-- A program that has yet to begin. -/
def unbegun (program : Program Nat) : Program Nat :=
  .sleep (some 0) fun _ => program

/-- A program that has slept long enough. -/
def awake (program : Program Nat) : Program Nat :=
  match program with
  | .sleep _ next => next ()
  | program => program

/-- Starts a renderer on a source. -/
def start (config : RendererConfig) (source : Path) (d : Disk) (now : Int) :
    Except IoError Group :=
  match programOf d config.command (config.args ++ [source.toString]) with
  | .error e => .error e
  | .ok leader => .ok {
      leader := unbegun leader
      wake := some now
      helpers := []
      deadline := config.limit?.map fun limit => now + 1000 * limit
      buffers := #[[], []]
      count := 0
      alive := []
      signal := none }

/-- The process that a command in the background becomes. -/
def helper (born : Nat × Code × State) (now : Int) : Helper where
  number := born.1
  program := unbegun do
    let (_, sh) ← runCode endless born.2.2 born.2.1
    return sh.status
  wake := some now

/-- The surroundings of the processes of a group. -/
def surroundings (g : Group) (d : Disk) (now : Int) : Surroundings where
  disk := d
  now := now
  buffers := g.buffers
  born := []
  count := g.count
  alive := g.alive
  signal := g.signal

/-- The group after one of its processes has acted. -/
def after (g : Group) (s : Surroundings) (now : Int) : Group :=
  { g with
    buffers := s.buffers
    count := s.count
    signal := s.signal
    alive := s.alive
    helpers := (g.helpers ++ s.born.map (helper · now)).filter fun h => s.alive.contains h.number }

/-- Lets the leader act if it is due. -/
def runLeader (g : Group) (d : Disk) (now : Int) : Group × Disk :=
  if !isDue g.wake now then (g, d)
  else
    let (leader, s) := (awake g.leader).advance (g.surroundings d now)
    ({ g with leader := leader, wake := wakeOf leader now }.after s now, s.disk)

/-- Lets a helper act if it is due. -/
def runHelper (g : Group) (d : Disk) (now : Int) (h : Helper) : Group × Disk :=
  if !(isDue h.wake now && g.alive.contains h.number) then (g, d)
  else
    let (program, s) := (awake h.program).advance (g.surroundings d now)
    let ended := match program with
      | .done _ => true
      | _ => false
    let alive := if ended then s.alive.filter (· != h.number) else s.alive
    let update (other : Helper) : Helper :=
      if other.number = h.number then { other with program := program, wake := wakeOf program now }
      else other
    ({ g with helpers := g.helpers.map update }.after { s with alive := alive } now, s.disk)

/-- Lets all processes act that are due, the leader last. -/
def runAll (g : Group) (d : Disk) (now : Int) : Group × Disk :=
  let ran := g.helpers.foldl (fun at_ h => at_.1.runHelper at_.2 now h) (g, d)
  ran.1.runLeader ran.2 now

/-- What the processes have printed. -/
def printed (g : Group) : Printout :=
  ⟨g.buffers.getD outputBuffer [], g.buffers.getD errorBuffer []⟩

/-- What has come of waiting for the leader, if the wait is over. -/
def waited? (g : Group) (now : Int) : Option Waited :=
  match g.signal, g.leader with
  | some _, _ => some (.exited none)
  | none, .done status => some (.exited (some (status % 256 : Nat)))
  | none, _ => if g.deadline.any (· ≤ now) then some .expired else none

/-- How the run has ended, if it has. -/
def outcome? (g : Group) (now : Int) : Option RunOutcome :=
  (g.waited? now).map (Waited.outcome g.printed)

/-- When something happens next, if ever. -/
def nextTime? (g : Group) : Option Int :=
  let times := (g.wake :: g.deadline :: g.helpers.map Helper.wake).filterMap id
  times.min?

/-- Runs a group until it ends. There are at most `fuel` moments at which something happens. -/
def finish (fuel : Nat) (g : Group) (d : Disk) (now : Int) : RunOutcome × Disk :=
  match fuel with
  | 0 => (.outlived, d)
  | fuel + 1 =>
    let (g, d) := g.runAll d now
    match g.outcome? now with
    | some outcome => (outcome, d)
    | none =>
      match g.nextTime? with
      | some time => finish fuel g d (max now time)
      | none => (.outlived, d)

end Group

/-- The renderer that a configuration names, when it is started at a given time. -/
def renderer (config : RendererConfig) (now : Int) : Renderer := fun source d =>
  match Group.start config source d now with
  | .error e => (.notStarted e, d)
  | .ok g => g.finish endless d now

end DiagramService.Shell
