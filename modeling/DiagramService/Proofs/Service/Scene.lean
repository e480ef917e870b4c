import DiagramService.Proofs.Disk.Gone
import DiagramService.Proofs.Render.Scratch
import DiagramService.Service.Running

/-! One call and the processes of its renderer. The processes write and remove the image at any
moment while they live, beside the steps of the call, and new ones are born. The call waits while
its renderer is watched and hears of the outcome after the processes have been killed, so whenever
it takes a step of its own no process is left. -/

namespace DiagramService

/-! ## Processes -/

/-- The processes of one renderer, by their numbers. The leader has the number zero. -/
structure Crew where
  /-- The image that they make. -/
  image : Path
  alive : List Nat
  /-- How the leader has ended, if it has. -/
  ended : Option (Option Int)

/-- A leader that has just been started. -/
def Crew.lone (image : Path) : Crew :=
  ⟨image, [0], none⟩

/-- What a living process may do at any moment. -/
inductive Crew.Act : Crew → Disk → Crew → Disk → Prop
  | write (crew d n content now) (hn : n ∈ crew.alive) :
    Act crew d crew (d.writeFile crew.image content now).2
  | remove (crew d n) (hn : n ∈ crew.alive) : Act crew d crew (d.removeFile crew.image).2
  | fork (crew d n m) (hn : n ∈ crew.alive) (hm : m ≠ 0) :
    Act crew d { crew with alive := m :: crew.alive } d
  | exit (crew d n) (hn : n ∈ crew.alive) (hleader : n ≠ 0) :
    Act crew d { crew with alive := crew.alive.filter (· ≠ n) } d
  | finish (crew d code) (hn : 0 ∈ crew.alive) :
    Act crew d { crew with alive := crew.alive.filter (· ≠ 0), ended := some code } d

/-- The image is written or removed, or nothing changes. -/
inductive Touches (image : Path) (d : Disk) : Disk → Prop
  | none : Touches image d d
  | write (content now) : Touches image d (d.writeFile image content now).2
  | remove : Touches image d (d.removeFile image).2

theorem Crew.Act.touches {crew crew' : Crew} {d d' : Disk} (h : crew.Act d crew' d') :
    crew'.image = crew.image ∧ Touches crew.image d d' := by
  cases h with
  | write n content now => exact ⟨rfl, .write content now⟩
  | remove => exact ⟨rfl, .remove⟩
  | fork => exact ⟨rfl, .none⟩
  | exit => exact ⟨rfl, .none⟩
  | finish => exact ⟨rfl, .none⟩

theorem Touches.addsFiles {image : Path} {d d' : Disk} (h : Touches image d d') :
    Disk.AddsFiles d d' := by
  cases h with
  | none => exact (Disk.Shrinks.refl d).addsFiles
  | write content now => exact Disk.writeFile_addsFiles d image content now
  | remove => exact (Disk.removeFile_shrinks d image).addsFiles

/-- The run of a renderer with another group in the place of its own. -/
def Supervision.map {γ δ : Type} (f : γ → δ) : Supervision γ → Supervision δ
  | .idle => .idle
  | .watch group => .watch (f group)
  | .kill group waited => .kill (f group) waited
  | .reap => .reap
  | .collect code printed => .collect code printed
  | .over outcome => .over outcome

theorem Supervision.group?_map {γ δ : Type} (f : γ → δ) (run : Supervision γ) :
    (run.map f).group? = run.group?.map f := by
  cases run <;> rfl

/-! ## Calls -/

/-- The invocation that a request waits for. -/
def Task.running? : Task → Option Invocation
  | .render r (.invoke scratch .run) => some (r.invocation scratch)
  | .save s (.invoke record .run) => some (s.invocation record)
  | _ => none

/-- A request waits for the renderer on the source of its invocation. -/
theorem Task.waiting?_eq (task : Task) :
    task.waiting? = task.running?.map fun i => i.files.source := by
  unfold running?
  split
  · rfl
  · rfl
  · next hrender hsave =>
    cases task with
    | render r phase =>
      cases phase with
      | invoke scratch inner =>
        cases inner with
        | run => exact absurd rfl (hrender r scratch)
        | _ => rfl
      | _ => rfl
    | save s phase =>
      cases phase with
      | invoke record inner =>
        cases inner with
        | run => exact absurd rfl (hsave s record)
        | _ => rfl
      | _ => rfl
    | _ => rfl

/-- What runs a renderer: an invocation by itself, or a request. -/
inductive Call where
  | invoke (i : Invocation) (phase : Invocation.Phase)
  | request (task : Task)

namespace Call

/-- The invocation that a call waits for. -/
def running? : Call → Option Invocation
  | .invoke i .run => some i
  | .invoke _ _ => none
  | .request task => task.running?

/-- The next step. -/
def step (endings : List (List Char)) (store : Store) (d : Disk) (now : Int) :
    Call → Call × Store × Disk
  | .invoke i phase =>
    let next := i.step phase d now
    (.invoke i next.1, store, next.2)
  | .request task =>
    let next := task.step endings store d now
    (.request next.1, next.2)

/-- The call after the end of a run has been heard of. -/
def hear (outcome : RunOutcome) : Call → Call
  | .invoke i phase => .invoke i (i.hear phase outcome)
  | .request task => .request (task.hear outcome)

end Call

/-- A call with the run of its renderer. -/
structure Scene where
  call : Call
  run : Supervision Crew
  store : Store
  disk : Disk

namespace Scene

/-- One step of the call, of what watches its renderer, or of a process. -/
inductive Step : Scene → Scene → Prop
  | advance (call run store d endings now) (hwait : call.running? = none)
      (hdraw : ∀ ending ∈ endings, Scratch.Drawn ending) :
    Step ⟨call, run, store, d⟩ ⟨(call.step endings store d now).1, run,
      (call.step endings store d now).2.1, (call.step endings store d now).2.2⟩
  | start (call store d i) (hwait : call.running? = some i) :
    Step ⟨call, .idle, store, d⟩ ⟨call, .ofStart (.ok (.lone i.files.image)), store, d⟩
  | refuse (call store d i cause) (hwait : call.running? = some i) :
    Step ⟨call, .idle, store, d⟩ ⟨call, .ofStart (.error cause), store, d⟩
  | act (call run store d crew crew' d') (hrun : run.group? = some crew)
      (hact : crew.Act d crew' d') :
    Step ⟨call, run, store, d⟩ ⟨call, run.map fun _ => crew', store, d'⟩
  | notice (call store d crew code) (hended : crew.ended = some code) :
    Step ⟨call, .watch crew, store, d⟩ ⟨call, .kill crew (.exited code), store, d⟩
  | miss (call store d crew cause) :
    Step ⟨call, .watch crew, store, d⟩ ⟨call, .kill crew (.failed cause), store, d⟩
  | expire (call store d crew i limit) (hwait : call.running? = some i)
      (hlimit : i.config.limit? = some limit) :
    Step ⟨call, .watch crew, store, d⟩ ⟨call, .kill crew .expired, store, d⟩
  | kill (call store d crew waited printed) :
    Step ⟨call, .kill crew waited, store, d⟩ ⟨call, .killed printed waited, store, d⟩
  | reap (call store d) : Step ⟨call, .reap, store, d⟩ ⟨call, .reaped, store, d⟩
  | collect (call store d code printed) :
    Step ⟨call, .collect code printed, store, d⟩ ⟨call, .collected code (.ok printed), store, d⟩
  | lose (call store d code printed cause) :
    Step ⟨call, .collect code printed, store, d⟩ ⟨call, .collected code (.error cause), store, d⟩
  | hear (call store d outcome) :
    Step ⟨call, .over outcome, store, d⟩ ⟨call.hear outcome, .idle, store, d⟩

/-- Any number of steps. -/
inductive Run : Scene → Scene → Prop
  | refl (w) : Run w w
  | tail {w w' w''} (hrun : Run w w') (hstep : Step w' w'') : Run w w''

theorem Run.trans {w w' w'' : Scene} (h : Run w w') (h' : Run w' w'') : Run w w'' := by
  induction h' with
  | refl => exact h
  | tail _ hstep ih => exact .tail ih hstep

/-- What every step keeps, every run keeps. -/
theorem Run.keeps {P : Scene → Prop} (hstep : ∀ w w', Step w w' → P w → P w') {w w' : Scene}
    (h : Run w w') (hw : P w) : P w' := by
  induction h with
  | refl => exact hw
  | tail _ hs ih => exact hstep _ _ hs ih

/-! ## Processes are at work only while the call waits -/

/-- A renderer is run for the invocation that the call waits for, or not at all. -/
def Attended (w : Scene) : Prop :=
  w.run = .idle ∨ ∃ i, w.call.running? = some i ∧
    ∀ crew, w.run.group? = some crew → crew.image = i.files.image

/-- A call by itself. -/
def alone (call : Call) (store : Store) (d : Disk) : Scene :=
  ⟨call, .idle, store, d⟩

theorem attended_alone (call : Call) (store : Store) (d : Disk) : (alone call store d).Attended :=
  .inl rfl

/-- What a step is to the call: a step of its own while no process is at work, a moment of waiting
at which the image may be touched, or the end of the wait. -/
inductive Move (w w' : Scene) : Prop
  | advance (endings now) (hwait : w.call.running? = none) (hrun : w'.run = .idle)
      (hdraw : ∀ ending ∈ endings, Scratch.Drawn ending)
      (hcall : w'.call = (w.call.step endings w.store w.disk now).1)
      (hdisk : w'.disk = (w.call.step endings w.store w.disk now).2.2)
  | wait (i) (hwait : w.call.running? = some i) (hcall : w'.call = w.call)
      (hcrew : ∀ crew, w'.run.group? = some crew → crew.image = i.files.image)
      (htouches : Touches i.files.image w.disk w'.disk)
  | hear (i outcome) (hwait : w.call.running? = some i) (hrun : w'.run = .idle)
      (hcall : w'.call = w.call.hear outcome) (hdisk : w'.disk = w.disk)

/-- Nothing is heard of a run before its processes have been killed. -/
theorem Step.move {w w' : Scene} (h : Step w w') (hw : w.Attended) : Move w w' := by
  cases h with
  | advance call run store d endings now hwait hdraw =>
    obtain hidle | ⟨i, hrunning, -⟩ := hw
    · exact .advance endings now hwait hidle hdraw rfl rfl
    · exact nomatch hwait.symm.trans hrunning
  | start call store d i hwait =>
    refine .wait i hwait rfl (fun crew hcrew => ?_) .none
    cases hcrew
    rfl
  | refuse call store d i cause hwait => exact .wait i hwait rfl nofun .none
  | act call run store d crew crew' d' hrun hact =>
    obtain ⟨himage, htouches⟩ := hact.touches
    obtain rfl | ⟨i, hwait, hcrew⟩ := hw
    · cases hrun
    · have hmade := hcrew crew hrun
      refine .wait i hwait rfl (fun other hother => ?_) (hmade ▸ htouches)
      rw [Supervision.group?_map, hrun] at hother
      cases hother
      exact himage.trans hmade
  | notice call store d crew code hended =>
    obtain hidle | ⟨i, hwait, hcrew⟩ := hw
    · cases hidle
    · exact .wait i hwait rfl hcrew .none
  | miss call store d crew cause =>
    obtain hidle | ⟨i, hwait, hcrew⟩ := hw
    · cases hidle
    · exact .wait i hwait rfl hcrew .none
  | expire call store d crew i' limit hwait' hlimit =>
    obtain hidle | ⟨i, hwait, hcrew⟩ := hw
    · cases hidle
    · exact .wait i hwait rfl hcrew .none
  | kill call store d crew waited printed =>
    obtain hidle | ⟨i, hwait, hcrew⟩ := hw
    · cases hidle
    · -- whatever was heard of the leader, the group is not at work any more
      refine .wait i hwait rfl ?_ .none
      cases waited <;> nofun
  | reap call store d =>
    obtain hidle | ⟨i, hwait, hcrew⟩ := hw
    · cases hidle
    · exact .wait i hwait rfl nofun .none
  | collect call store d code printed =>
    obtain hidle | ⟨i, hwait, hcrew⟩ := hw
    · cases hidle
    · exact .wait i hwait rfl nofun .none
  | lose call store d code printed cause =>
    obtain hidle | ⟨i, hwait, hcrew⟩ := hw
    · cases hidle
    · exact .wait i hwait rfl nofun .none
  | hear call store d outcome =>
    obtain hidle | ⟨i, hwait, hcrew⟩ := hw
    · cases hidle
    · exact .hear i outcome hwait rfl rfl rfl

theorem Move.attended {w w' : Scene} (h : Move w w') : w'.Attended := by
  cases h with
  | advance endings now hwait hrun => exact .inl hrun
  | wait i hwait hcall hcrew => exact .inr ⟨i, by rw [hcall]; exact hwait, hcrew⟩
  | hear i outcome hwait hrun => exact .inl hrun

theorem Run.attended {w w' : Scene} (h : Run w w') (hw : w.Attended) : w'.Attended :=
  h.keeps (fun _ _ hstep hw => (hstep.move hw).attended) hw

/-- What every step keeps as the call sees it, every run keeps. -/
theorem Run.keeps_call {P : Call → Disk → Prop}
    (hmove : ∀ w w', Move w w' → P w.call w.disk → P w'.call w'.disk) {w w' : Scene}
    (h : Run w w') (hw : w.Attended) (hP : P w.call w.disk) : P w'.call w'.disk := by
  have hboth : w'.Attended ∧ P w'.call w'.disk :=
    h.keeps (P := fun v => v.Attended ∧ P v.call v.disk)
      (fun v v' hstep hv => ⟨(hstep.move hv.1).attended, hmove v v' (hstep.move hv.1) hv.2⟩)
      ⟨hw, hP⟩
  exact hboth.2

end Scene

end DiagramService
