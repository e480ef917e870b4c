import DiagramService.Proofs.Render.Scratch
import DiagramService.Proofs.Service.AtOnce
import DiagramService.Proofs.Shell.Watch

/-! Renderers that are run in the shell, as what comes from outside to a world. The processes of a
renderer act moment by moment, and what it does at once is what they do until their watch is over.
A request waits for its renderer once: after it has heard of the end there is no other run. -/

namespace DiagramService

/-! ## What the processes of a renderer may do -/

/-- A group of processes at some moment of its work on a source. -/
inductive Shell.Group.WorksOn (config : RendererConfig) (source : Path) : Group → Prop
  | start {d now g} (h : Group.start config source d now = .ok g) : WorksOn config source g
  | act {g} (d now) (h : WorksOn config source g) : WorksOn config source (g.runAll d now).1

/-- How the run of a renderer on a source may end. It may always be given up. -/
inductive Shell.Ends (config : RendererConfig) (source : Path) : RunOutcome → Prop
  | refused {d now cause} (h : Group.start config source d now = .error cause) :
    Ends config source (.notStarted cause)
  | ended {g : Group} {code} (h : g.WorksOn config source) :
    Ends config source (.ended code g.printed.errors)
  | outlived : Ends config source .outlived

/-- What comes from outside to a service whose renderers are run in the shell. A request is taken up
with the store in use. -/
def Rules.shell (config : Config) : Rules where
  admits w task number := number + 1 = w.stores.length ∧ ∃ store request,
    w.stores[number]? = some store ∧
      task = .ofAction ⟨config, store, w.disk⟩ request (.ofRequest request)
  reopens _ config' := config' = config
  clock _ := True
  draws _ endings _ := ∀ ending ∈ endings, Scratch.Drawn ending
  acts task d d' := ∃ source g now, task.waiting? = some source ∧
    Shell.Group.WorksOn config.renderer source g ∧ d' = (g.runAll d now).2
  ends task _ _ outcome := ∃ source, task.waiting? = some source ∧
    Shell.Ends config.renderer source outcome

/-- A renderer that is run to its end in the shell does what its processes do one after another. -/
theorem Shell.Group.WorksOn.finish {config : RendererConfig} {source : Path} {g : Group}
    (h : g.WorksOn config source) (fuel : Nat) (d : Disk) (now : Int) :
    Relation.ReflTransGen (fun d d' => ∃ g now, WorksOn config source g ∧ d' = (g.runAll d now).2)
        d (g.finish fuel d now).2 ∧
      Ends config source (g.finish fuel d now).1 := by
  induction fuel generalizing g d now with
  | zero => exact ⟨.refl, .outlived⟩
  | succ fuel ih =>
    unfold Group.finish
    have hact : ∃ g' now', WorksOn config source g' ∧ (g.runAll d now).2 = (g'.runAll d now').2 :=
      ⟨g, now, h, rfl⟩
    have hran := h.act d now
    generalize g.runAll d now = ran at hact hran
    obtain ⟨g', d'⟩ := ran
    simp only
    cases houtcome : g'.outcome? now with
    | some outcome =>
      refine ⟨.single hact, ?_⟩
      obtain ⟨code, rfl⟩ | rfl := outcome?_cases houtcome
      · exact .ended hran
      · exact .outlived
    | none =>
      cases g'.nextTime? with
      | none => exact ⟨.single hact, .outlived⟩
      | some time => exact ⟨.head hact (ih hran d' (max now time)).1, (ih hran d' (max now time)).2⟩

/-- So the rules grant what a renderer in the shell does at once. -/
theorem Rules.shell_grants (config : Config) (now : Int) (n : Nat) :
    (Rules.shell config).Grants
      ⟨Shell.renderer config.renderer now, Scratch.endingsFrom n, fun _ => now⟩ where
  clock _ := trivial
  draws _ _ := Scratch.drawn_endingsFrom n
  acts task source d hwait := by
    simp only [Shell.renderer]
    split
    · exact .refl
    · next g hstart =>
      refine Relation.ReflTransGen.mono ?_ _ _
        (Shell.Group.WorksOn.finish (.start hstart) Shell.endless d now).1
      rintro d d' ⟨g, now, hg, rfl⟩
      exact ⟨source, g, now, hwait, hg, rfl⟩
  ends task source d hwait := by
    refine ⟨source, hwait, ?_⟩
    simp only [Shell.renderer]
    split
    · next cause hstart => exact .refused hstart
    · next g hstart => exact (Shell.Group.WorksOn.finish (.start hstart) Shell.endless d now).2

/-! ## Requests whose renderer has been heard of -/

/-- The run of the renderer does not come any more. -/
def Invocation.Phase.Past : Phase → Prop
  | .read => True
  | .done _ => True
  | _ => False

def Rendering.Phase.Past : Phase → Prop
  | .invoke _ phase => phase.Past
  | .close _ _ => True
  | .done _ => True
  | _ => False

def Save.Phase.Past : Phase → Prop
  | .invoke _ phase => phase.Past
  | .relocate _ => True
  | .discard _ _ _ => True
  | .unmark _ _ => True
  | .done _ => True
  | _ => False

def Task.Past : Task → Prop
  | .render _ phase => phase.Past
  | .save _ phase => phase.Past
  | _ => True

section Past

theorem Invocation.past_afterRun (i : Invocation) (outcome : RunOutcome) :
    (i.afterRun outcome).Past := by
  rcases i.afterRun_cases outcome with hread | ⟨error, hdone⟩
  · rw [hread]
    exact trivial
  · rw [hdone]
    exact trivial

theorem Invocation.Phase.Past.step {phase : Phase} (h : phase.Past) (i : Invocation) (d : Disk)
    (now : Int) : (i.step phase d now).1.Past := by
  cases phase with
  | read => exact trivial
  | done result => exact trivial
  | _ => exact h.elim

theorem Rendering.past_goOn (scratch : Scratch) {phase : Invocation.Phase} (h : phase.Past) :
    (goOn scratch phase).Past := by
  cases phase with
  | done result => exact trivial
  | _ => exact h

theorem Save.past_goOn (record : SavedDiagram) {phase : Invocation.Phase} (h : phase.Past) :
    (goOn record phase).Past := by
  cases phase with
  | done result => cases result <;> exact trivial
  | _ => exact h

variable {task : Task}

theorem Task.Past.waiting? (h : task.Past) : task.waiting? = none := by
  cases task with
  | render r phase =>
    cases phase with
    | invoke scratch phase =>
      cases phase with
      | run => exact h.elim
      | _ => rfl
    | _ => rfl
  | save s phase =>
    cases phase with
    | invoke record phase =>
      cases phase with
      | run => exact h.elim
      | _ => rfl
    | _ => rfl
  | _ => rfl

theorem Task.Past.step (h : task.Past) (endings : List (List Char)) (store : Store) (d : Disk)
    (now : Int) : (task.step endings store d now).1.Past := by
  cases task with
  | render r phase =>
    cases phase with
    | invoke scratch phase =>
      exact Rendering.past_goOn scratch (Invocation.Phase.Past.step h (r.invocation scratch) d now)
    | close scratch result => exact trivial
    | done result => exact trivial
    | _ => exact h.elim
  | save s phase =>
    cases phase with
    | invoke record phase =>
      exact Save.past_goOn record (Invocation.Phase.Past.step h (s.invocation record) d now)
    | relocate record =>
      show (Save.relocate record d).1.Past
      unfold Save.relocate
      split
      · exact trivial
      · split <;> exact trivial
    | discard record paths error => cases paths <;> exact trivial
    | unmark record result => exact trivial
    | done result => exact trivial
    | _ => exact h.elim
  | _ => exact trivial

/-- What has been heard of does not come again. -/
theorem Task.past_hear {source : Path} (hwait : task.waiting? = some source)
    (outcome : RunOutcome) : (task.hear outcome).Past := by
  cases task with
  | render r phase =>
    cases phase with
    | invoke scratch phase =>
      cases phase with
      | run => exact Rendering.past_goOn scratch ((r.invocation scratch).past_afterRun outcome)
      | _ => cases hwait
    | _ => cases hwait
  | save s phase =>
    cases phase with
    | invoke record phase =>
      cases phase with
      | run => exact Save.past_goOn record ((s.invocation record).past_afterRun outcome)
      | _ => cases hwait
    | _ => cases hwait
  | _ => cases hwait

end Past

/-! ## How far a run is -/

/-- How far the renderer of a request is in a world, by how far its run is. -/
inductive Supervision.Stands (config : RendererConfig) (task : Task) :
    Supervision Shell.Group → Work → Prop
  | idle {work} (h : work = .idle ∨ task.Past) : Stands config task .idle work
  | watch {source g given} (hwait : task.waiting? = some source) (hg : g.WorksOn config source) :
    Stands config task (.watch g) (.running given)
  | kill {source g code given} (hwait : task.waiting? = some source)
    (hg : g.WorksOn config source) : Stands config task (.kill g (.exited code)) (.running given)
  | expire {source g given} (hwait : task.waiting? = some source) :
    Stands config task (.kill g .expired) (.running given)
  | reap {source given} (hwait : task.waiting? = some source) :
    Stands config task .reap (.running given)
  | collect {source g code given} (hwait : task.waiting? = some source)
    (hg : Shell.Group.WorksOn config source g) :
    Stands config task (.collect code g.printed) (.running given)
  | told {source outcome given} (hwait : task.waiting? = some source)
    (hends : Shell.Ends config source outcome) : Stands config task (.over outcome) (.running given)

end DiagramService
