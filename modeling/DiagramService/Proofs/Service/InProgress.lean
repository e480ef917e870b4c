import DiagramService.Proofs.Service.Rounds

/-! Jobs in progress and jobs that have been answered. An id is pending only as long as a job in
progress saves with it, so nothing is pending when all jobs have been answered. A job that has been
answered is left alone from then on, whatever is done with the service. -/

namespace DiagramService

/-! ## Pending ids -/

/-- A save that has its id marked has not been answered. -/
theorem Task.response?_of_marked? {task : Task} {id : DiagramId} (h : task.marked? = some id) :
    task.response? = none := by
  cases task with
  | save s phase =>
    cases phase with
    | done result => cases h
    | _ => rfl
  | _ => cases h

section Pending

variable {s : Service} {now : Int} {r : Running}

/-- An id is only pending in a store while a job that has not been answered saves with it. -/
theorem Running.pending_has_job (h : Relation.ReflTransGen Running.Does (.ofService s now) r)
    (hs : s.store.pending = []) {k : Nat} {store : Store} (hk : r.stores[k]? = some store)
    {id : DiagramId} (hid : store.isPending id = true) :
    ∃ n job, r.jobs[n]? = some job ∧ job.store = k ∧ job.task.marked? = some id ∧
      r.response? n = none := by
  obtain ⟨m, w, place, hrun, hshows⟩ := Running.leads_of_does h
  have hbacked : w.Backed := hrun.keeps (fun _ _ hstep hw => hw.step hstep)
    (World.Backed.start (by simpa using hs) s.disk)
  obtain ⟨i, e, he, hstore, hmarked⟩ := hbacked k store id (by simpa [hshows.stores] using hk) hid
  have hresponse := Task.response?_of_marked? hmarked
  rcases hshows.others i e he with ⟨n, hn, rfl⟩ | hanswered
  · have hjob := Array.getElem?_eq_getElem hn
    obtain ⟨f, hf, hshown⟩ := hshows.jobs n _ hjob
    rw [he] at hf
    cases hf
    refine ⟨n, _, hjob, hshown.store.symm.trans hstore, hshown.task ▸ hmarked, ?_⟩
    obtain ⟨f, hf, hgot⟩ := hshows.response? hjob
    rw [he] at hf
    cases hf
    rw [hgot, hresponse]
    rfl
  · rw [hresponse] at hanswered
    cases hanswered

/-- When all jobs have been answered no id is pending any more. -/
theorem Running.pending_eq_nil (h : Relation.ReflTransGen Running.Does (.ofService s now) r)
    (hs : s.store.pending = []) (hall : ∀ n < r.jobs.size, r.response? n ≠ none) {k : Nat}
    {store : Store} (hk : r.stores[k]? = some store) : store.pending = [] := by
  refine List.eq_nil_iff_forall_not_mem.mpr fun id hid => ?_
  have hpending : store.isPending id = true := by simpa [Store.isPending] using hid
  obtain ⟨n, job, hjob, -, -, hnone⟩ := Running.pending_has_job h hs hk hpending
  exact hall n (Array.getElem?_eq_some_iff.mp hjob).1 hnone

end Pending

/-! ## Responses are final -/

/-- A task that waits for its renderer has no response yet. -/
theorem Task.response?_of_waiting? {task : Task} {source : Path}
    (h : task.waiting? = some source) : task.response? = none := by
  cases task with
  | render r phase =>
    cases phase with
    | done result => cases h
    | _ => rfl
  | save s phase =>
    cases phase with
    | done result => cases h
    | _ => rfl
  | _ => cases h

section Final

variable {s : Service} {now : Int} {r r' : Running} {n : Nat} {response : Http.Response} {job : Job}

/-- A job has been answered, and no renderer is run for it any more. -/
structure Running.Answered (n : Nat) (response : Http.Response) (job : Job) (r : Running) :
    Prop where
  found : r.jobs[n]? = some job
  idle : job.run = .idle
  waiting : job.task.waiting? = none
  answered : job.task.response?.map (·.finished job.request) = some response

theorem Running.Answered.response? (h : r.Answered n response job) :
    r.response? n = some response :=
  (Running.response?_eq h.found).trans h.answered

/-- A job of which there is a response has heard of its renderer. -/
theorem World.Shows.answered {config : Config} {place : Nat → Nat} {w : World}
    (h : w.Shows config place r) (hresponse : r.response? n = some response) :
    ∃ job, r.Answered n response job := by
  cases hjob : r.jobs[n]? with
  | none => simp [Running.response?, hjob] at hresponse
  | some job =>
    rw [Running.response?_eq hjob] at hresponse
    have hwait : job.task.waiting? = none := by
      cases hwait : job.task.waiting? with
      | none => rfl
      | some source => simp [Task.response?_of_waiting? hwait] at hresponse
    refine ⟨job, hjob, ?_, hwait, hresponse⟩
    obtain ⟨⟨task, number, work⟩, -, hshown⟩ := h.jobs n job hjob
    have hstands := hshown.run
    generalize job.run = run at hstands ⊢
    cases hstands with
    | idle => rfl
    | watch hwait' => simp [hwait] at hwait'
    | kill hwait' => simp [hwait] at hwait'
    | expire hwait' => simp [hwait] at hwait'
    | reap hwait' => simp [hwait] at hwait'
    | collect hwait' => simp [hwait] at hwait'
    | told hwait' => simp [hwait] at hwait'

/-- A step of a job does not change the others. -/
theorem Running.stepJob_jobs {m : Nat} (hne : m ≠ n) :
    (r.stepJob m).2.jobs[n]? = r.jobs[n]? := by
  have hrun : ∀ job, (r.stepRun m job).2.jobs[n]? = r.jobs[n]? := by
    intro job
    unfold Running.stepRun
    split <;> simp [Array.getElem?_setIfInBounds_ne hne]
  unfold Running.stepJob
  split
  · rfl
  · split
    · simp [Running.startRun, Array.getElem?_setIfInBounds_ne hne]
    · rfl
    · simp [Array.getElem?_setIfInBounds_ne hne]
    · exact hrun _

/-- A job that has been answered takes no step. -/
theorem Running.Answered.stepJob (h : r.Answered n response job) (m : Nat) :
    (r.stepJob m).2.Answered n response job := by
  by_cases hmn : m = n
  · obtain ⟨given, hgiven, -⟩ := Option.map_eq_some_iff.mp h.answered
    have hsame : r.stepJob m = (false, r) := by
      simp only [Running.stepJob, hmn, h.found, h.idle, h.waiting, hgiven]
    rw [hsame]
    exact h
  · exact ⟨(Running.stepJob_jobs hmn).trans h.found, h.idle, h.waiting, h.answered⟩

/-- Whatever else is done, a job that has been answered stays as it is. -/
theorem Running.Answered.does (h : r.Answered n response job) (hdoes : Running.Does r r') :
    r'.Answered n response job := by
  cases hdoes with
  | accept request =>
    have hn := (Array.getElem?_eq_some_iff.mp h.found).1
    have hfound : (r.accept request).jobs[n]? = some job := by
      simpa [Running.accept, Array.getElem?_push, hn.ne] using h.found
    exact ⟨hfound, h.idle, h.waiting, h.answered⟩
  | handle request => exact ⟨h.found, h.idle, h.waiting, h.answered⟩
  | run fuel limit stop =>
    exact Running.run_keeps (P := Running.Answered n response job)
      (fun _ m h => h.stepJob m) (fun _ _ h => ⟨h.found, h.idle, h.waiting, h.answered⟩) h fuel
      limit stop
  | restart hstart =>
    have hjobs : r.restart.2.jobs = r.jobs := by
      unfold Running.restart
      split <;> rfl
    exact ⟨hjobs ▸ h.found, h.idle, h.waiting, h.answered⟩

/-- A response is final: whatever is done with the service after it, the request has no other one.
-/
theorem Running.response?_of_does (h : Relation.ReflTransGen Running.Does (.ofService s now) r)
    (hresponse : r.response? n = some response) (hdoes : Relation.ReflTransGen Running.Does r r') :
    r'.response? n = some response := by
  obtain ⟨_, w, place, -, hshows⟩ := Running.leads_of_does h
  obtain ⟨job, hanswered⟩ := hshows.answered hresponse
  have hstays : r'.Answered n response job := by
    induction hdoes with
    | refl => exact hanswered
    | tail _ hdoes ih => exact ih.does hdoes
  exact hstays.response?

end Final

end DiagramService
