import DiagramService.Proofs.Service.Marks
import DiagramService.Proofs.Store.Catalogue
import DiagramService.Proofs.Store.FirstFree

/-! Requests that are answered at once. What the service does to answer a request in one go is a run
of the world in which nothing comes between the steps of the request. So whatever holds of all runs
holds of it too. -/

namespace DiagramService

/-! ## Steps without anything in between -/

/-- Any number of steps of one request. -/
def Errand.Steps (R : Rules) : Errand × Store × Disk → Errand × Store × Disk → Prop :=
  Relation.ReflTransGen fun a b => Errand.Step R a.1 a.2.1 a.2.2 b.1 b.2.1 b.2.2

/-- What a setting decides may come from outside. What a renderer leaves may come about bit by bit.
-/
structure Rules.Grants (R : Rules) (e : Setting) : Prop where
  clock : ∀ n, R.clock (e.clock n)
  draws : ∀ task d, R.draws task e.endings d
  acts : ∀ task source d, task.waiting? = some source →
    Relation.ReflTransGen (R.acts task) d (e.renderer source d).2
  ends : ∀ task source d, task.waiting? = some source →
    R.ends task (d.contentAt source).toOption (e.renderer source d).2 (e.renderer source d).1

section Steps

variable {R : Rules} {e : Setting}

/-- A request that does not wait for its renderer goes on. -/
theorem Errand.Steps.advance (hR : R.Grants e) (n : Nat) {task : Task} (number : Nat) (work : Work)
    (store : Store) (d : Disk) (hwait : task.waiting? = none) :
    Errand.Steps R (⟨task, number, work⟩, store, d)
      (⟨(task.step e.endings store d (e.clock n)).1, number, work⟩,
        (task.step e.endings store d (e.clock n)).2) :=
  .single (.advance task number work store d e.endings (e.clock n) hwait (hR.clock n)
    (hR.draws task d))

/-- A request that waits for its renderer hears of its end after the renderer has acted. -/
theorem Errand.Steps.run (hR : R.Grants e) {task : Task} (number : Nat) (store : Store) (d : Disk)
    {source : Path} (hwait : task.waiting? = some source) :
    ∃ work, Errand.Steps R (⟨task, number, .idle⟩, store, d)
      (⟨task.hear (e.renderer source d).1, number, work⟩, store, (e.renderer source d).2) := by
  have hacts : ∀ {d'}, Relation.ReflTransGen (R.acts task) d d' →
      Errand.Steps R (⟨task, number, .idle⟩, store, d)
        (⟨task, number, .running (d.contentAt source).toOption⟩, store, d') := by
    intro d' h
    induction h with
    | refl => exact .single (.begin task number store d source hwait)
    | tail _ hact ih => exact .tail ih (.act task number _ store _ source _ hwait hact)
  exact ⟨_, .tail (hacts (hR.acts task source d hwait))
    (.finish task number _ store _ source _ hwait (hR.ends task source d hwait))⟩

/-! ## An invocation in a request -/

/-- A request goes through the phases of an invocation. -/
structure Task.Hosts (host : Invocation.Phase → Task) (i : Invocation) : Prop where
  waiting : (host .run).waiting? = some i.files.source
  busy : ∀ phase, phase.result? = none → phase ≠ .run → (host phase).waiting? = none
  step : ∀ phase endings store d now, phase.result? = none →
    (host phase).step endings store d now =
      (host (i.step phase d now).1, store, (i.step phase d now).2)
  hear : ∀ outcome, (host .run).hear outcome = host (i.afterRun outcome)

theorem Rendering.hosts (r : Rendering) (scratch : Scratch) :
    Task.Hosts (fun phase => .render r (goOn scratch phase)) (r.invocation scratch) where
  waiting := rfl
  busy phase hphase hrun := by
    cases phase with
    | run => exact absurd rfl hrun
    | done result => cases hphase
    | _ => rfl
  step phase endings store d now hphase := by
    cases phase with
    | done result => cases hphase
    | _ => rfl
  hear _ := rfl

theorem Save.hosts (s : Save) (record : SavedDiagram) :
    Task.Hosts (fun phase => .save s (goOn record phase)) (s.invocation record) where
  waiting := rfl
  busy phase hphase hrun := by
    cases phase with
    | run => exact absurd rfl hrun
    | done result => cases hphase
    | _ => rfl
  step phase endings store d now hphase := by
    cases phase with
    | done result => cases hphase
    | _ => rfl
  hear _ := rfl

/-- The run of the renderer does not follow at once. -/
theorem Invocation.write_ne_run (i : Invocation) {d d' : Disk} {now : Int} {phase : Phase}
    (h : i.write d now = (phase, d')) : phase ≠ .run := by
  unfold write at h
  split at h <;> cases h <;> nofun

section Hosts

variable {host : Invocation.Phase → Task} {i : Invocation}

theorem Task.Hosts.advance (h : Task.Hosts host i) (hR : R.Grants e) (n : Nat) (number : Nat)
    (work : Work) (store : Store) (d : Disk) {phase : Invocation.Phase}
    (hphase : phase.result? = none) (hrun : phase ≠ .run) :
    Errand.Steps R (⟨host phase, number, work⟩, store, d)
      (⟨host (i.step phase d (e.clock n)).1, number, work⟩, store,
        (i.step phase d (e.clock n)).2) := by
  have hstep := Errand.Steps.advance hR n number work store d (h.busy phase hphase hrun)
  rwa [h.step phase _ _ _ _ hphase] at hstep

/-- Before its run an invocation takes two steps, unless it has failed after the first. -/
theorem Task.Hosts.prepare (h : Task.Hosts host i) (hR : R.Grants e) (n : Nat) (number : Nat)
    (work : Work) (store : Store) (d : Disk) :
    Errand.Steps R (⟨host .write, number, work⟩, store, d)
      (⟨host (i.prepare d (e.clock n)).1, number, work⟩, store, (i.prepare d (e.clock n)).2) := by
  have hwrite := h.advance hR n number work store d (show Invocation.Phase.write.result? = none
    from rfl) nofun
  refine Relation.ReflTransGen.trans hwrite ?_
  show Errand.Steps R (⟨host (i.write d (e.clock n)).1, _, _⟩, _, (i.write d (e.clock n)).2) _
  unfold Invocation.prepare
  rcases hwritten : i.write d (e.clock n) with ⟨phase, d₁⟩
  cases hphase : phase.result? with
  | none => exact h.advance hR n number work store d₁ hphase (i.write_ne_run hwritten)
  | some result =>
    cases phase with
    | done result => exact .refl
    | _ => cases hphase

/-- The steps of an invocation come to what it does at once. -/
theorem Task.Hosts.perform (h : Task.Hosts host i) (hR : R.Grants e) (n : Nat) (number : Nat)
    (store : Store) (d : Disk) :
    ∃ work, Errand.Steps R (⟨host .write, number, .idle⟩, store, d)
      (⟨host (.done (i.perform e.renderer d (e.clock n)).1), number, work⟩, store,
        (i.perform e.renderer d (e.clock n)).2) := by
  have hprepare := h.prepare hR n number .idle store d
  rcases i.prepare_cases d (e.clock n) with ⟨d₁, hrun⟩ | ⟨cause, hblocked⟩
  · rw [hrun] at hprepare
    obtain ⟨work, hran⟩ := Errand.Steps.run hR number store d₁ h.waiting
    rw [h.hear] at hran
    have hbefore := hprepare.trans hran
    obtain ⟨hdisk, ⟨hread, hresult⟩ | ⟨error, hdone, hresult⟩⟩ :=
      Invocation.perform_of_prepare hrun e.renderer
    · rw [hread] at hbefore
      rw [hdisk, hresult]
      exact ⟨work, hbefore.trans (h.advance hR n number work store _
        (show Invocation.Phase.read.result? = none from rfl) nofun)⟩
    · rw [hdone] at hbefore
      rw [hdisk, hresult]
      exact ⟨work, hbefore⟩
  · obtain ⟨d₁, hdone⟩ := Invocation.prepare_of_blocked hblocked
    rw [hdone] at hprepare
    refine ⟨.idle, ?_⟩
    simpa [Invocation.perform, hdone, Invocation.run] using hprepare

end Hosts

/-! ## Renderings -/

theorem Rendering.advance (hR : R.Grants e) (r : Rendering) (n number : Nat) (work : Work)
    (store : Store) {phase phase' : Phase} {d d' : Disk} (hwait : waiting? phase = none)
    (hstep : r.step phase e.endings d (e.clock n) = (phase', d')) :
    Errand.Steps R (⟨.render r phase, number, work⟩, store, d)
      (⟨.render r phase', number, work⟩, store, d') := by
  have hadvance := Errand.Steps.advance hR n number work store d
    (show (Task.render r phase).waiting? = none from hwait)
  simp only [Task.step, hstep] at hadvance
  exact hadvance

/-- The steps of a rendering come to what it does at once. -/
theorem Rendering.steps_perform (hR : R.Grants e) (r : Rendering) (n number : Nat) (store : Store)
    (d : Disk) :
    ∃ work, Errand.Steps R (⟨.render r .makeRoot, number, .idle⟩, store, d)
      (⟨.render r (.done (r.perform e.renderer e.endings d (e.clock n)).1), number, work⟩, store,
        (r.perform e.renderer e.endings d (e.clock n)).2) := by
  simp only [perform, Scratch.allocate]
  rcases hmade : d.makeDirs r.workDir with ⟨error | _, d₁⟩
  · exact ⟨.idle, r.advance hR n number .idle store rfl (by simp only [step, hmade]; rfl)⟩
  have hroot := r.advance hR n number .idle store rfl
    (show r.step .makeRoot e.endings d (e.clock n) = (.allocate, d₁) by simp only [step, hmade])
  rcases hallocated : Scratch.allocateIn d₁ (d₁.absolute r.workDir) e.endings with
    ⟨error | scratch, d₂⟩
  · simp only [hallocated]
    exact ⟨.idle, hroot.trans (r.advance hR n number .idle store rfl
      (by simp only [step, hallocated]))⟩
  · have hallocate := r.advance hR n number .idle store rfl
      (show r.step .allocate e.endings d₁ (e.clock n) = (.invoke scratch .write, d₂) by
        simp only [step, hallocated])
    obtain ⟨work, hperform⟩ := (r.hosts scratch).perform hR n number store d₂
    simp only [hallocated]
    exact ⟨work, hroot.trans (hallocate.trans (hperform.trans
      (r.advance hR n number work store rfl rfl)))⟩

/-! ## Saves -/

theorem Save.advance (hR : R.Grants e) (s : Save) (n number : Nat) (work : Work)
    {store store' : Store} {phase phase' : Phase} {d d' : Disk} (hwait : waiting? phase = none)
    (hstep : s.step phase store d (e.clock n) = (phase', store', d')) :
    Errand.Steps R (⟨.save s phase, number, work⟩, store, d)
      (⟨.save s phase', number, work⟩, store', d') := by
  have hadvance := Errand.Steps.advance hR n number work store d
    (show (Task.save s phase).waiting? = none from hwait)
  simp only [Task.step, hstep] at hadvance
  exact hadvance

/-- The steps that a save takes one after another. A step while it waits for its renderer changes
nothing. -/
theorem Save.steps_steps (hR : R.Grants e) (s : Save) (times : Nat → Nat) (n number : Nat)
    (work : Work) (phase : Phase) (store : Store) (d : Disk) :
    Errand.Steps R (⟨.save s phase, number, work⟩, store, d)
      (⟨.save s (s.steps (fun i => e.clock (times i)) n (phase, store, d)).1, number, work⟩,
        (s.steps (fun i => e.clock (times i)) n (phase, store, d)).2) := by
  induction n generalizing times phase store d with
  | zero => exact .refl
  | succ n ih =>
    refine Relation.ReflTransGen.trans ?_ (ih (fun i => times (i + 1)) _ _ _)
    cases hwait : waiting? phase with
    | none => exact s.advance hR (times 0) number work hwait rfl
    | some source =>
      obtain ⟨record, rfl, -⟩ := Save.eq_run_of_waiting? hwait
      exact .refl

/-- Claiming an id at once. -/
theorem Save.steps_claim (hR : R.Grants e) (s : Save) (number : Nat) (store : Store) (d : Disk) :
    Errand.Steps R (⟨.save s .makeDir, number, .idle⟩, store, d)
      (⟨.save s (afterClaim (claimAtOnce store d e.clock)).1, number, .idle⟩,
        (afterClaim (claimAtOnce store d e.clock)).2) := by
  obtain ⟨n, hn⟩ := s.steps_claimAtOnce store d e.clock
  have hsteps := s.steps_steps hR (fun i => (i - 1) / 4) n number .idle .makeDir store d
  rwa [hn] at hsteps

/-- The files of a save that failed are removed one by one. -/
theorem Save.steps_discard (hR : R.Grants e) (s : Save) (number : Nat) (work : Work) (store : Store)
    (d : Disk) (record : SavedDiagram) (paths : List Path) (error : RenderError) :
    Errand.Steps R (⟨.save s (.discard record paths error), number, work⟩, store, d)
      (⟨.save s (.done (.error error)), number, work⟩, store.unmark record.id,
        removeAll d paths) := by
  induction paths generalizing d with
  | nil =>
    have hunmark := s.advance hR 0 number work rfl
      (show s.step (.discard record [] error) store d (e.clock 0) =
        (.unmark record (.error error), store, d) from rfl)
    exact hunmark.trans (s.advance hR 0 number work rfl rfl)
  | cons path paths ih =>
    exact Relation.ReflTransGen.trans (s.advance hR 0 number work rfl rfl) (ih _)

/-- What follows when the record of a claimed id has been rendered, or could not be. -/
def Save.afterRender (record : SavedDiagram) : Except RenderError Unit → Phase
  | .ok () => .unmark record (.ok record)
  | .error error => giveUp record error

/-- The steps by which the record of a claimed id is rendered. -/
theorem Save.steps_render (hR : R.Grants e) (s : Save) (n number : Nat) (store : Store) (d : Disk)
    (record : SavedDiagram) :
    ∃ work, Errand.Steps R (⟨.save s (.invoke record .write), number, .idle⟩, store, d)
      (⟨.save s (afterRender record (s.render e.renderer record d (e.clock n)).1), number, work⟩,
        store, (s.render e.renderer record d (e.clock n)).2) := by
  obtain ⟨work, hperform⟩ := (s.hosts record).perform hR n number store d
  refine ⟨work, Relation.ReflTransGen.trans hperform ?_⟩
  unfold render
  rcases (s.invocation record).perform e.renderer d (e.clock n) with ⟨error | image, d₁⟩
  · exact .refl
  · refine s.advance hR n number work rfl ?_
    show ((relocate record d₁).1, store, (relocate record d₁).2) = _
    by_cases hsame : (filesOf record).image.same record.image
    · simp only [relocate, hsame, if_true, afterRender]
    · rcases hrename : d₁.rename (filesOf record).image record.image with ⟨error | _, d₂⟩ <;>
        simp only [relocate, hsame, hrename, afterRender, if_false, Bool.false_eq_true]

/-- The steps of a save come to what it does at once. -/
theorem Save.steps_perform (hR : R.Grants e) (s : Save) (number : Nat) (store : Store) (d : Disk) :
    ∃ work, Errand.Steps R (⟨.save s .makeDir, number, .idle⟩, store, d)
      (⟨.save s (.done (s.perform e.renderer store d e.clock).1), number, work⟩,
        (s.perform e.renderer store d e.clock).2) := by
  have hclaim := s.steps_claim hR number store d
  rw [s.perform_eq]
  rcases hclaimed : claimAtOnce store d e.clock with ⟨error | record, store₁, d₁⟩ <;>
    rw [hclaimed] at hclaim
  · exact ⟨.idle, hclaim⟩
  · obtain ⟨work, hrender⟩ := s.steps_render hR maxClaims number store₁ d₁ record
    have hrendered := hclaim.trans hrender
    rcases hresult : s.render e.renderer record d₁ (e.clock maxClaims) with ⟨error | _, d₂⟩
    · rw [hresult] at hrendered
      simp only [hresult]
      exact ⟨work, hrendered.trans (s.steps_discard hR number work store₁ d₂ record _ error)⟩
    · rw [hresult] at hrendered
      simp only [hresult]
      exact ⟨work, hrendered.trans (s.advance hR 0 number work rfl rfl)⟩

/-! ## Listings and answers -/

/-- The steps of a listing come to what it finds at once. -/
theorem Listing.steps_perform (hR : R.Grants e) (number : Nat) (store : Store) (d : Disk) :
    Errand.Steps R (⟨.list .names, number, .idle⟩, store, d)
      (⟨.list (.done (perform store d)), number, .idle⟩, store, d) := by
  have hiterate : ∀ n phase, Errand.Steps R (⟨.list phase, number, .idle⟩, store, d)
      (⟨.list ((fun phase => step phase store d)^[n] phase), number, .idle⟩, store, d) := by
    intro n
    induction n with
    | zero => exact fun phase => .refl
    | succ n ih =>
      exact fun phase => Relation.ReflTransGen.trans
        (Errand.Steps.advance hR 0 number .idle store d rfl) (ih _)
  obtain ⟨n, hn⟩ := iterate_names store d
  rw [← hn]
  exact hiterate n .names

/-- A request that has just been taken up goes through its steps to the response that it would get
at once. -/
theorem Service.steps_act (hR : R.Grants e) (s : Service) (request : Http.Request) (number : Nat)
    (action : Http.Action) :
    ∃ task work, Errand.Steps R (⟨.ofAction s request action, number, .idle⟩, s.store, s.disk)
        (⟨task, number, work⟩, (s.act e request action).2.store, (s.act e request action).2.disk) ∧
      task.response? = some (s.act e request action).1 := by
  cases action with
  | reply response => exact ⟨_, _, .refl, rfl⟩
  | render text =>
    obtain ⟨work, hsteps⟩ := Rendering.steps_perform hR
      ⟨s.config.renderer, s.config.workDir, text⟩ 0 number s.store s.disk
    exact ⟨_, work, hsteps, rfl⟩
  | save text =>
    obtain ⟨work, hsteps⟩ := Save.steps_perform hR ⟨s.config.renderer, text⟩ number s.store s.disk
    exact ⟨_, work, hsteps, rfl⟩
  | list => exact ⟨_, _, Listing.steps_perform hR number s.store s.disk, rfl⟩
  | file path => exact ⟨_, _, .refl, rfl⟩

end Steps

/-! ## A run of the world -/

section World

variable {R : Rules}

/-- The steps of a request are a run of a world that has it. -/
theorem World.Run.of_steps {a b : Errand × Store × Disk} (h : Errand.Steps R a b)
    {stores : List Store} {errands : List Errand} {i : Nat}
    (hstore : stores[a.1.store]? = some a.2.1) (hi : errands[i]? = some a.1) :
    b.1.store = a.1.store ∧ ∃ n, World.Run R n ⟨stores, a.2.2, errands⟩
      ⟨stores.set a.1.store b.2.1, b.2.2, errands.set i b.1⟩ := by
  obtain ⟨hlt, hget⟩ := List.getElem?_eq_some_iff.mp hstore
  obtain ⟨hlt', hget'⟩ := List.getElem?_eq_some_iff.mp hi
  induction h with
  | refl =>
    have hstores : stores.set a.1.store a.2.1 = stores := by rw [← hget, List.set_getElem_self]
    have herrands : errands.set i a.1 = errands := by rw [← hget', List.set_getElem_self]
    rw [hstores, herrands]
    exact ⟨rfl, 0, .refl _⟩
  | @tail b c hsteps hstep ih =>
    obtain ⟨hnumber, n, hrun⟩ := ih
    refine ⟨hstep.store_eq.1.trans hnumber, n + 1, ?_⟩
    have hmove := World.Step.move (stores.set a.1.store b.2.1) b.2.2 (errands.set i b.1) i b.1 b.2.1
      c.1 c.2.1 c.2.2 (List.getElem?_set_self hlt')
      (by rw [hnumber]; exact List.getElem?_set_self hlt) hstep
    rw [hnumber, List.set_set, List.set_set] at hmove
    exact .tail hrun hmove

/-- A request that is answered at once takes its steps while all others wait. What it gets at once
is the response at the end of them, and the store and the disk are as they leave them. -/
theorem World.Run.of_handle {e : Setting} (hR : R.Grants e) (s : Service) (request : Http.Request)
    {w : World} {number : Nat} (hstore : w.stores[number]? = some s.store) (hdisk : w.disk = s.disk)
    (hadmits : R.admits w (.ofAction s request (.ofRequest request)) number) :
    ∃ n task work, World.Run R n w
        ⟨w.stores.set number (s.handle e request).2.store, (s.handle e request).2.disk,
          w.errands ++ [⟨task, number, work⟩]⟩ ∧
      task.response?.map (·.finished request) = some (s.handle e request).1 := by
  obtain ⟨stores, d, errands⟩ := w
  obtain rfl : d = s.disk := hdisk
  have haccept := World.Step.accept stores s.disk errands _ number hadmits
  have hlast : (errands ++ [⟨.ofAction s request (.ofRequest request), number, .idle⟩])[
      errands.length]? = some ⟨.ofAction s request (.ofRequest request), number, .idle⟩ := by
    simp
  obtain ⟨task, work, hsteps, hresponse⟩ :=
    Service.steps_act hR s request number (.ofRequest request)
  obtain ⟨-, n, hrun⟩ := World.Run.of_steps hsteps hstore hlast
  rw [List.set_append_right _ _ (Nat.le_refl _), Nat.sub_self] at hrun
  refine ⟨_, task, work, (World.Run.tail (.refl _) haccept).append hrun, ?_⟩
  rw [hresponse]
  rfl

end World

end DiagramService
