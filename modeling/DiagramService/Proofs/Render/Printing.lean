import DiagramService.Proofs.Render.Behaviour
import DiagramService.Render.Rendering
import DiagramService.Render.Supervision
import DiagramService.Store.Save

/-! What a renderer prints. It stays in the error of a run that failed, and neither the steps that
follow nor the disk depend on it. So two renderers that differ in nothing else lead to the same disk
and to results that are the same up to what was printed. -/

namespace DiagramService

/-! ## Renderers that print -/

/-- One run of a renderer with all that it prints. -/
structure Performance where
  /-- What came of waiting for it, or why it was not started. -/
  ending : Except IoError Waited
  printed : Printout
  disk : Disk

/-- A renderer with all that it prints. -/
abbrev Talker := Path → Disk → Performance

/-- What the service learns of a run. -/
def Performance.outcome (p : Performance) : RunOutcome :=
  match p.ending with
  | .error cause => .notStarted cause
  | .ok waited => waited.outcome p.printed

/-- The renderer as it is run. -/
def Talker.renderer (t : Talker) : Renderer := fun source d =>
  ((t source d).outcome, (t source d).disk)

/-- Two renderers do the same but for what they print. -/
def Talker.Alike (t t' : Talker) : Prop :=
  ∀ source d, (t source d).ending = (t' source d).ending ∧ (t source d).disk = (t' source d).disk

/-- Two renderers do the same but for what they write to their streams for errors. -/
def Renderer.Alike (renderer renderer' : Renderer) : Prop :=
  ∀ source d, (renderer source d).1.quiet = (renderer' source d).1.quiet ∧
    (renderer source d).2 = (renderer' source d).2

/-- An outcome tells the rest whatever was printed. -/
theorem Waited.outcome_quiet (waited : Waited) (printed printed' : Printout) :
    (waited.outcome printed).quiet = (waited.outcome printed').quiet := by
  cases waited <;> rfl

theorem Talker.Alike.renderer {t t' : Talker} (h : t.Alike t') :
    t.renderer.Alike t'.renderer := by
  intro source d
  obtain ⟨hending, hdisk⟩ := h source d
  refine ⟨?_, hdisk⟩
  simp only [Talker.renderer, Performance.outcome, hending]
  cases (t' source d).ending with
  | error cause => rfl
  | ok waited => exact waited.outcome_quiet _ _

/-- Outcomes that tell the same are the same, or a run has ended and printed something else. -/
theorem RunOutcome.of_quiet {outcome outcome' : RunOutcome} (h : outcome.quiet = outcome'.quiet) :
    outcome = outcome' ∨ ∃ code errors errors',
      outcome = .ended code errors ∧ outcome' = .ended code errors' := by
  cases outcome with
  | ended code errors =>
    cases outcome' with
    | ended code' errors' =>
      obtain rfl : code = code' := by simpa [quiet] using h
      exact .inr ⟨code, errors, errors', rfl, rfl⟩
    | _ => cases h
  | _ =>
    cases outcome' with
    | ended => cases h
    | _ => exact .inl h

/-! ## Results that differ in what was printed -/

/-- Errors of one kind that differ in what was printed, or in the path of the missing image. -/
inductive RenderError.Alike : RenderError → RenderError → Prop
  | same (error) : Alike error error
  | toolFailure (code stderr stderr') : Alike (.toolFailure code stderr) (.toolFailure code stderr')
  | outputMissing (path path') : Alike (.outputMissing path) (.outputMissing path')

/-- Results that differ in nothing else. -/
inductive ResultAlike {α : Type} : Except RenderError α → Except RenderError α → Prop
  | ok (a) : ResultAlike (.ok a) (.ok a)
  | error {error error'} (h : RenderError.Alike error error') :
    ResultAlike (.error error) (.error error')

theorem ResultAlike.same {α : Type} (result : Except RenderError α) :
    ResultAlike result result := by
  cases result with
  | ok a => exact .ok a
  | error error => exact .error (.same error)

namespace Invocation

inductive Phase.Alike : Phase → Phase → Prop
  | same (phase) : Alike phase phase
  | done {result result'} (h : ResultAlike result result') : Alike (.done result) (.done result')

/-- What comes after a run does not depend on what was printed, but for the error. -/
theorem afterRun_alike (i : Invocation) {outcome outcome' : RunOutcome}
    (h : outcome.quiet = outcome'.quiet) : (i.afterRun outcome).Alike (i.afterRun outcome') := by
  obtain rfl | ⟨code, errors, errors', rfl, rfl⟩ := RunOutcome.of_quiet h
  · exact .same _
  · simp only [afterRun]
    split
    · exact .same _
    · exact .done (.error (.toolFailure code _ _))

theorem step_alike (i : Invocation) {phase phase' : Phase} (h : phase.Alike phase') (d : Disk)
    (now : Int) : (i.step phase d now).1.Alike (i.step phase' d now).1 ∧
      (i.step phase d now).2 = (i.step phase' d now).2 := by
  cases h with
  | same => exact ⟨.same _, rfl⟩
  | done h => exact ⟨.done h, rfl⟩

theorem hear_alike (i : Invocation) {phase phase' : Phase} (h : phase.Alike phase')
    {outcome outcome' : RunOutcome} (houtcome : outcome.quiet = outcome'.quiet) :
    (i.hear phase outcome).Alike (i.hear phase' outcome') := by
  cases h with
  | same =>
    cases phase with
    | run => exact i.afterRun_alike houtcome
    | _ => exact .same _
  | done h => exact .done h

/-- What an invocation comes to does not depend on what was printed, but for the error. -/
theorem perform_alike (i : Invocation) {renderer renderer' : Renderer}
    (h : renderer.Alike renderer') (d : Disk) (now : Int) :
    ResultAlike (i.perform renderer d now).1 (i.perform renderer' d now).1 ∧
      (i.perform renderer d now).2 = (i.perform renderer' d now).2 := by
  simp only [perform]
  generalize i.prepare d now = prepared
  obtain ⟨phase, e⟩ := prepared
  cases phase with
  | run =>
    obtain ⟨houtcome, hdisk⟩ := h i.files.source e
    simp only [run, hdisk]
    have hafter := i.afterRun_alike houtcome
    generalize i.afterRun (renderer i.files.source e).1 = phase at hafter ⊢
    generalize i.afterRun (renderer' i.files.source e).1 = phase' at hafter ⊢
    cases hafter with
    | same => exact ⟨.same _, rfl⟩
    | done hresult => exact ⟨hresult, rfl⟩
  | _ => exact ⟨.same _, rfl⟩

end Invocation

namespace Rendering

inductive Phase.Alike : Phase → Phase → Prop
  | same (phase) : Alike phase phase
  | close (scratch) {result result'} (h : ResultAlike result result') :
    Alike (.close scratch result) (.close scratch result')
  | done {result result'} (h : ResultAlike result result') : Alike (.done result) (.done result')

theorem goOn_alike (scratch : Scratch) {phase phase' : Invocation.Phase} (h : phase.Alike phase') :
    (goOn scratch phase).Alike (goOn scratch phase') := by
  cases h with
  | same => exact .same _
  | done h => exact .close scratch h

theorem step_alike (r : Rendering) {phase phase' : Phase} (h : phase.Alike phase')
    (endings : List (List Char)) (d : Disk) (now : Int) :
    (r.step phase endings d now).1.Alike (r.step phase' endings d now).1 ∧
      (r.step phase endings d now).2 = (r.step phase' endings d now).2 := by
  cases h with
  | same => exact ⟨.same _, rfl⟩
  | close scratch h => exact ⟨.done h, rfl⟩
  | done h => exact ⟨.done h, rfl⟩

theorem hear_alike (r : Rendering) {phase phase' : Phase} (h : phase.Alike phase')
    {outcome outcome' : RunOutcome} (houtcome : outcome.quiet = outcome'.quiet) :
    (r.hear phase outcome).Alike (r.hear phase' outcome') := by
  cases h with
  | same =>
    cases phase with
    | invoke scratch inner =>
      exact goOn_alike scratch ((r.invocation scratch).hear_alike (.same inner) houtcome)
    | _ => exact .same _
  | close scratch h => exact .close scratch h
  | done h => exact .done h

theorem waiting?_alike {phase phase' : Phase} (h : phase.Alike phase') :
    waiting? phase = waiting? phase' := by
  cases h <;> rfl

theorem perform_alike (r : Rendering) {renderer renderer' : Renderer}
    (h : renderer.Alike renderer') (endings : List (List Char)) (d : Disk) (now : Int) :
    ResultAlike (r.perform renderer endings d now).1 (r.perform renderer' endings d now).1 ∧
      (r.perform renderer endings d now).2 = (r.perform renderer' endings d now).2 := by
  simp only [perform]
  split
  · exact ⟨.same _, rfl⟩
  · next scratch e _ =>
    obtain ⟨hresult, hdisk⟩ := (r.invocation scratch).perform_alike h e now
    exact ⟨hresult, congrArg scratch.drop hdisk⟩

end Rendering

namespace Save

inductive Phase.Alike : Phase → Phase → Prop
  | same (phase) : Alike phase phase
  | discard (record paths) {error error'} (h : RenderError.Alike error error') :
    Alike (.discard record paths error) (.discard record paths error')
  | unmark (record) {result result'} (h : ResultAlike result result') :
    Alike (.unmark record result) (.unmark record result')
  | done {result result'} (h : ResultAlike result result') : Alike (.done result) (.done result')

theorem goOn_alike (record : SavedDiagram) {phase phase' : Invocation.Phase}
    (h : phase.Alike phase') : (goOn record phase).Alike (goOn record phase') := by
  cases h with
  | same => exact .same _
  | done h =>
    cases h with
    | ok image => exact .same _
    | error h => exact .discard record _ h

theorem step_alike (s : Save) {phase phase' : Phase} (h : phase.Alike phase') (store : Store)
    (d : Disk) (now : Int) : (s.step phase store d now).1.Alike (s.step phase' store d now).1 ∧
      (s.step phase store d now).2 = (s.step phase' store d now).2 := by
  cases h with
  | same => exact ⟨.same _, rfl⟩
  | discard record paths h =>
    cases paths with
    | nil => exact ⟨.unmark record (.error h), rfl⟩
    | cons path paths => exact ⟨.discard record paths h, rfl⟩
  | unmark record h => exact ⟨.done h, rfl⟩
  | done h => exact ⟨.done h, rfl⟩

theorem hear_alike (s : Save) {phase phase' : Phase} (h : phase.Alike phase')
    {outcome outcome' : RunOutcome} (houtcome : outcome.quiet = outcome'.quiet) :
    (s.hear phase outcome).Alike (s.hear phase' outcome') := by
  cases h with
  | same =>
    cases phase with
    | invoke record inner =>
      exact goOn_alike record ((s.invocation record).hear_alike (.same inner) houtcome)
    | _ => exact .same _
  | discard record paths h => exact .discard record paths h
  | unmark record h => exact .unmark record h
  | done h => exact .done h

theorem waiting?_alike {phase phase' : Phase} (h : phase.Alike phase') :
    waiting? phase = waiting? phase' := by
  cases h <;> rfl

theorem render_alike (s : Save) {renderer renderer' : Renderer} (h : renderer.Alike renderer')
    (record : SavedDiagram) (d : Disk) (now : Int) :
    ResultAlike (s.render renderer record d now).1 (s.render renderer' record d now).1 ∧
      (s.render renderer record d now).2 = (s.render renderer' record d now).2 := by
  obtain ⟨hresult, hdisk⟩ := (s.invocation record).perform_alike h d now
  unfold render
  generalize (s.invocation record).perform renderer d now = invoked at hresult hdisk ⊢
  generalize (s.invocation record).perform renderer' d now = invoked' at hresult hdisk ⊢
  obtain ⟨result, e⟩ := invoked
  obtain ⟨result', e'⟩ := invoked'
  obtain rfl : e = e' := hdisk
  cases hresult with
  | ok image => exact ⟨.same _, rfl⟩
  | error herror => exact ⟨.error herror, rfl⟩

theorem perform_alike (s : Save) {renderer renderer' : Renderer} (h : renderer.Alike renderer')
    (store : Store) (d : Disk) (clock : Nat → Int) :
    ResultAlike (s.perform renderer store d clock).1 (s.perform renderer' store d clock).1 ∧
      (s.perform renderer store d clock).2 = (s.perform renderer' store d clock).2 := by
  unfold perform
  split
  · exact ⟨.same _, rfl⟩
  · next e _ =>
    split
    · exact ⟨.same _, rfl⟩
    · next record store e _ =>
      obtain ⟨hresult, hdisk⟩ := s.render_alike h record e (clock maxClaims)
      generalize s.render renderer record e (clock maxClaims) = rendered at hresult hdisk ⊢
      generalize s.render renderer' record e (clock maxClaims) = rendered' at hresult hdisk ⊢
      obtain ⟨result, e⟩ := rendered
      obtain ⟨result', e'⟩ := rendered'
      obtain rfl : e = e' := hdisk
      cases hresult with
      | ok => exact ⟨.same _, rfl⟩
      | error herror => exact ⟨.error herror, rfl⟩

end Save

end DiagramService
