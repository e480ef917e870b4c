import DiagramService.Service.Basic
import DiagramService.Shell.Group

/-!
# Requests at the same time

Requests that are in progress take turns, a step each. While a request waits for its renderer the
processes of that renderer act instead. Time passes when nothing can act before a later moment.
After a new start of the service the requests from before it go on with the store that they began
with.
-/

namespace DiagramService

/-- What a request in progress has left to do. -/
inductive Task where
  | render (rendering : Rendering) (phase : Rendering.Phase)
  | save (s : Save) (phase : Save.Phase)
  | list (phase : Listing.Phase)
  | answered (response : Http.Response)

/-- A request in progress. -/
structure Job where
  request : Http.Request
  task : Task
  /-- The number of its store. -/
  store : Nat
  /-- How far its renderer is. -/
  run : Supervision Shell.Group

/-- The service with the requests in progress. -/
structure Running where
  config : Config
  /-- The stores since the first start. The last one is in use. -/
  stores : Array Store
  disk : Disk
  /-- The time in milliseconds. -/
  now : Int
  jobs : Array Job
  /-- How many endings of names have been drawn for scratch directories. -/
  drawn : Nat

namespace Task

/-- What a request begins with. -/
def ofAction (s : Service) (request : Http.Request) : Http.Action → Task
  | .reply response => .answered response
  | .render text => .render ⟨s.config.renderer, s.config.workDir, text⟩ .makeRoot
  | .save text => .save ⟨s.config.renderer, text⟩ .makeDir
  | .list => .list .names
  | .file path => .answered (Http.StaticFile.serve s.disk s.store.dir request path)

/-- The source that the renderer is to run on. -/
def waiting? : Task → Option Path
  | .render _ phase => Rendering.waiting? phase
  | .save _ phase => Save.waiting? phase
  | _ => none

/-- The task after the end of a run has been heard of. -/
def hear (outcome : RunOutcome) : Task → Task
  | .render rendering phase => .render rendering (rendering.hear phase outcome)
  | .save s phase => .save s (s.hear phase outcome)
  | task => task

/-- The next step. -/
def step (endings : List (List Char)) (store : Store) (d : Disk) (now : Int) :
    Task → Task × Store × Disk
  | .render rendering phase =>
    let next := rendering.step phase endings d now
    (.render rendering next.1, store, next.2)
  | .save s phase =>
    let next := s.step phase store d now
    (.save s next.1, next.2)
  | .list phase => (.list (Listing.step phase store d), store, d)
  | .answered response => (.answered response, store, d)

/-- The response at the end. -/
def response? : Task → Option Http.Response
  | .render _ phase => (Rendering.result? phase).map .ofRender
  | .save _ phase => (Save.result? phase).map .ofSave
  | .list phase => (Listing.result? phase).map .ofList
  | .answered response => some response

end Task

namespace Running

/-- The number of the store in use. -/
def current (r : Running) : Nat :=
  r.stores.size - 1

/-- The store in use. -/
def store (r : Running) : Store :=
  r.stores.getD r.current (.open_ r.config.saveDir)

/-- The service as one that answers one request after another. -/
def service (r : Running) : Service :=
  ⟨r.config, r.store, r.disk⟩

/-- The same after the service has answered a request. -/
def withService (r : Running) (s : Service) : Running :=
  { r with stores := r.stores.setIfInBounds r.current s.store, disk := s.disk }

/-- The service that has just been started. -/
def ofService (s : Service) (now : Int) : Running :=
  ⟨s.config, #[s.store], s.disk, now, #[], 0⟩

/-- The setting in which the service answers a request at once. -/
def setting (r : Running) : Setting where
  renderer := Shell.renderer r.config.renderer r.now
  endings := Scratch.endingsFrom r.drawn
  clock := fun _ => r.now

/-- Answers a request at once. -/
def handle (r : Running) (request : Http.Request) : Http.Response × Running :=
  let answer := r.service.handle r.setting request
  (answer.1, { r.withService answer.2 with drawn := r.drawn + 1 })

/-- Starts the service again. What is in progress goes on. -/
def restart (r : Running) : Except String Unit × Running :=
  match Service.start r.config r.disk with
  | (.ok s, d) => (.ok (), { r with stores := r.stores.push s.store, disk := d })
  | (.error e, d) => (.error e, { r with disk := d })

/-- Takes up a request. -/
def accept (r : Running) (request : Http.Request) : Running :=
  let task := Task.ofAction r.service request (.ofRequest request)
  { r with jobs := r.jobs.push ⟨request, task, r.current, .idle⟩ }

/-- The response to a request, if it has been answered. -/
def response? (r : Running) (n : Nat) : Option Http.Response := do
  let job ← r.jobs[n]?
  let response ← job.task.response?
  return response.finished job.request

/-- Lets the run of a renderer go on, and says whether it took a step. The processes of a group act
while it is watched. -/
def stepRun (r : Running) (n : Nat) (job : Job) : Bool × Running :=
  let goOn (run : Supervision Shell.Group) : Running :=
    { r with jobs := r.jobs.setIfInBounds n { job with run := run } }
  match job.run with
  | .idle => (false, r)
  | .watch g =>
    let next := g.runAll r.disk r.now
    let waited := next.1.waited? r.now
    let run := (waited.map (.kill next.1)).getD (.watch next.1)
    (waited.isSome, { goOn run with disk := next.2 })
  | .kill g waited => (true, goOn (.killed g.printed waited))
  | .reap => (true, goOn .reaped)
  | .collect code printed => (true, goOn (.collected code (.ok printed)))
  | .over outcome =>
    let job := { job with task := job.task.hear outcome, run := .idle }
    (true, { r with jobs := r.jobs.setIfInBounds n job })

/-- Starts the renderer of a request. -/
def startRun (r : Running) (n : Nat) (job : Job) (source : Path) : Running :=
  let run := .ofStart (Shell.Group.start r.config.renderer source r.disk r.now)
  { r with jobs := r.jobs.setIfInBounds n { job with run := run } }

/-- Lets a request take its next step, and says whether it took one. -/
def stepJob (r : Running) (n : Nat) : Bool × Running :=
  match r.jobs[n]? with
  | none => (false, r)
  | some job =>
    match job.run, job.task.waiting?, job.task.response? with
    | .idle, some source, _ => (true, r.startRun n job source)
    | .idle, none, some _ => (false, r)
    | .idle, none, none =>
      let store := r.stores.getD job.store r.store
      let (task, store, d) := job.task.step (Scratch.endingsFrom r.drawn) store r.disk r.now
      (true, { r with
        drawn := r.drawn + 1
        stores := r.stores.setIfInBounds job.store store
        disk := d
        jobs := r.jobs.setIfInBounds n { job with task := task } })
    | _, _, _ => r.stepRun n job

/-- Lets every request take its next step, and says whether any took one. -/
def round (r : Running) : Bool × Running :=
  (List.range r.jobs.size).foldl
    (fun done n =>
      let next := done.2.stepJob n
      (done.1 || next.1, next.2))
    (false, r)

/-- When something happens next. -/
def nextTime? (r : Running) : Option Int :=
  (r.jobs.toList.filterMap fun job => job.run.group?.bind Shell.Group.nextTime?).min?

/-- Goes on until `stop` holds, until nothing happens any more, or until `limit`. There are at most
`fuel` rounds. -/
def run (fuel : Nat) (limit : Option Int) (stop : Running → Bool) (r : Running) : Running :=
  match fuel with
  | 0 => r
  | fuel + 1 =>
    if stop r then r
    else
      let (acted, r) := r.round
      if acted then run fuel limit stop r
      else
        match r.nextTime?, limit with
        | some time, some limit =>
          if limit ≤ time then { r with now := max r.now limit }
          else run fuel (some limit) stop { r with now := max (r.now + 1) time }
        | some time, none => run fuel none stop { r with now := max (r.now + 1) time }
        | none, some limit => { r with now := max r.now limit }
        | none, none => r

end Running

end DiagramService
