import DiagramService.Proofs.Service.ShellRules

/-! The service as it runs. The jobs of a running service are requests of a world: in a round each
of them takes at most one step, and whether that is a step of its own, the start of its renderer,
something that the processes of this do, or what is heard of their end, it is a step that a request
of the world may take. So whatever a running service does is a run of the world, and what holds of
all runs holds of it. -/

namespace DiagramService

/-! ## Rounds -/

section Keeps

variable {P : Running → Prop} {r : Running}

/-- What every step of a job keeps, a round keeps. -/
theorem Running.round_keeps (hstep : ∀ r n, P r → P (Running.stepJob r n).2) (h : P r) :
    P r.round.2 := by
  have hfold : ∀ (jobs : List Nat) (done : Bool × Running), P done.2 →
      P (jobs.foldl (fun done n =>
        let next := done.2.stepJob n
        (done.1 || next.1, next.2)) done).2 := by
    intro jobs
    induction jobs with
    | nil => exact fun done hdone => hdone
    | cons n jobs ih => exact fun done hdone => ih _ (hstep done.2 n hdone)
  exact hfold _ _ h

/-- If the passing of time keeps it as well, it is kept however long the service goes on. -/
theorem Running.run_keeps (hstep : ∀ r n, P r → P (Running.stepJob r n).2)
    (htime : ∀ r now, P r → P { r with now := now }) (h : P r) (fuel : Nat) (limit : Option Int)
    (stop : Running → Bool) : P (r.run fuel limit stop) := by
  induction fuel generalizing r limit with
  | zero => exact h
  | succ fuel ih =>
    unfold Running.run
    split
    · exact h
    · have hround := Running.round_keeps hstep h
      generalize r.round = acted at hround ⊢
      obtain ⟨acted, r'⟩ := acted
      simp only
      split
      · exact ih hround limit
      · split
        · split
          · exact htime _ _ hround
          · exact ih (htime _ _ hround) _
        · exact ih (htime _ _ hround) _
        · exact htime _ _ hround
        · exact hround

end Keeps

/-! ## Jobs as requests of a world -/

/-- A job is a request of a world with some stores. -/
structure Job.Shown (config : Config) (count : Nat) (job : Job) (e : Errand) : Prop where
  task : e.task = job.task
  store : e.store = job.store
  counted : job.store < count
  run : job.run.Stands config.renderer job.task e.work

/-- A world with the stores, the disk and the jobs of a running service. All other requests in the
world have been answered. -/
structure World.Shows (config : Config) (place : Nat → Nat) (w : World) (r : Running) : Prop where
  configured : r.config = config
  stores : w.stores = r.stores.toList
  opened : 0 < r.stores.size
  disk : w.disk = r.disk
  injective : ∀ m n, m < r.jobs.size → n < r.jobs.size → place m = place n → m = n
  jobs : ∀ n job, r.jobs[n]? = some job →
    ∃ e, w.errands[place n]? = some e ∧ job.Shown config r.stores.size e
  others : ∀ (i : Nat) (e : Errand), w.errands[i]? = some e →
    (∃ n < r.jobs.size, place n = i) ∨ e.task.response?.isSome

/-- Some run leads to a world that shows a running service. -/
def World.Leads (config : Config) (w : World) (r : Running) : Prop :=
  ∃ n w' place, World.Run (.shell config) n w w' ∧ w'.Shows config place r

section Shows

variable {config : Config} {place : Nat → Nat} {w w' : World} {r r' : Running} {n : Nat}
  {job job' : Job} {e e' : Errand}

theorem World.Shows.leads (h : w.Shows config place r) : w.Leads config r :=
  ⟨0, w, place, .refl w, h⟩

/-- A job becomes another one, and its request as well. -/
theorem World.Shows.replace (h : w.Shows config place r) (hjob : r.jobs[n]? = some job)
    (hshown : job'.Shown config r'.stores.size e') (hconfig : r'.config = r.config)
    (hstores : w'.stores = r'.stores.toList) (hsize : r'.stores.size = r.stores.size)
    (hdisk : w'.disk = r'.disk) (hjobs : r'.jobs = r.jobs.setIfInBounds n job')
    (herrands : w'.errands = w.errands.set (place n) e') : w'.Shows config place r' := by
  have hn := (Array.getElem?_eq_some_iff.mp hjob).1
  have hcount : r'.jobs.size = r.jobs.size := by rw [hjobs, Array.size_setIfInBounds]
  refine ⟨hconfig.trans h.configured, hstores, hsize ▸ h.opened, hdisk, fun m m' hm hm' => ?_,
    fun m other hother => ?_, fun i f hf => ?_⟩
  · rw [hcount] at hm hm'
    exact h.injective m m' hm hm'
  · rw [hjobs] at hother
    rw [herrands]
    by_cases hmn : n = m
    · subst hmn
      obtain ⟨e, he, -⟩ := h.jobs n job hjob
      rw [Array.getElem?_setIfInBounds_self_of_lt hn] at hother
      cases hother
      exact ⟨e', List.getElem?_set_self (List.getElem?_eq_some_iff.mp he).1, hshown⟩
    · rw [Array.getElem?_setIfInBounds_ne hmn] at hother
      obtain ⟨e, he, hshown⟩ := h.jobs m other hother
      have hm := (Array.getElem?_eq_some_iff.mp hother).1
      refine ⟨e, ?_, hsize ▸ hshown⟩
      rw [List.getElem?_set_ne (fun heq => hmn (h.injective n m hn hm heq))]
      exact he
  · rw [hcount]
    by_cases hi : place n = i
    · exact .inl ⟨n, hn, hi⟩
    · rw [herrands, List.getElem?_set_ne hi] at hf
      exact h.others i f hf

/-- A step of a request takes its job along. -/
theorem World.Shows.move (h : w.Shows config place r) (hjob : r.jobs[n]? = some job)
    (he : w.errands[place n]? = some e) (hnumber : e.store = job.store) {store store' : Store}
    {d' : Disk} (hstore : w.stores[job.store]? = some store)
    (hstep : Errand.Step (.shell config) e store r.disk e' store' d')
    (hshown : job'.Shown config r.stores.size e') (drawn : Nat) :
    w.Leads config { r with
      drawn := drawn
      stores := r.stores.setIfInBounds job.store store'
      disk := d'
      jobs := r.jobs.setIfInBounds n job' } := by
  refine ⟨1, ⟨w.stores.set job.store store', d', w.errands.set (place n) e'⟩, place, ?_, ?_⟩
  · rw [← h.disk] at hstep
    rw [← hnumber] at hstore ⊢
    exact .tail (.refl w) (.move w.stores w.disk w.errands (place n) e store e' store' d' he hstore
      hstep)
  · refine h.replace hjob (by simpa using hshown) rfl ?_ (by simp) rfl rfl rfl
    rw [Array.toList_setIfInBounds, ← h.stores]

/-- A job whose run goes on without the request. -/
theorem World.Shows.stay (h : w.Shows config place r) (hjob : r.jobs[n]? = some job)
    (he : w.errands[place n]? = some e) (hshown : job'.Shown config r.stores.size e) :
    w.Leads config { r with jobs := r.jobs.setIfInBounds n job' } := by
  obtain ⟨hlt, hget⟩ := List.getElem?_eq_some_iff.mp he
  refine World.Shows.leads (h.replace hjob hshown rfl h.stores rfl h.disk rfl ?_)
  rw [← hget, List.set_getElem_self]

/-- The store with a number. -/
theorem World.Shows.store (h : w.Shows config place r) {number : Nat}
    (hlt : number < r.stores.size) (other : Store) :
    w.stores[number]? = some (r.stores.getD number other) ∧
      r.stores.setIfInBounds number (r.stores.getD number other) = r.stores := by
  have hget : r.stores.getD number other = r.stores[number] := by simp [Array.getD, hlt]
  rw [hget, h.stores]
  exact ⟨by simp [hlt], by simp [Array.setIfInBounds, hlt]⟩

/-- A step at which the renderer is started, acts or is heard of does not depend on the store. -/
theorem World.Shows.turn (h : w.Shows config place r) (hjob : r.jobs[n]? = some job)
    (he : w.errands[place n]? = some e) (hold : job.Shown config r.stores.size e) {d' : Disk}
    (hstep : ∀ store, Errand.Step (.shell config) e store r.disk e' store d')
    (hshown : job'.Shown config r.stores.size e') :
    w.Leads config { r with disk := d', jobs := r.jobs.setIfInBounds n job' } := by
  obtain ⟨hstore, hsame⟩ := h.store hold.counted r.store
  have hmoved := h.move hjob he hold.store hstore (hstep _) hshown r.drawn
  rwa [hsame] at hmoved

/-- The renderer of a request is started. -/
theorem World.Shows.startRun (h : w.Shows config place r) (hjob : r.jobs[n]? = some job)
    (hidle : job.run = .idle) {source : Path} (hwait : job.task.waiting? = some source) :
    w.Leads config (r.startRun n job source) := by
  obtain rfl := h.configured
  obtain ⟨⟨task, number, work⟩, he, hold⟩ := h.jobs n job hjob
  obtain rfl : task = job.task := hold.task
  have hwork : work = .idle := by
    have hstands := hold.run
    rw [hidle] at hstands
    cases hstands with
    | idle hpast => exact hpast.resolve_right fun hpast => nomatch hwait.symm.trans hpast.waiting?
  subst hwork
  refine h.turn hjob he hold (fun store => .begin job.task number store r.disk source hwait)
    ⟨rfl, hold.store, hold.counted, ?_⟩
  cases hstart : Shell.Group.start r.config.renderer source r.disk r.now with
  | ok g => exact .watch hwait (.start hstart)
  | error cause => exact .told hwait (.refused hstart)

/-- While a run is watched its processes act, and at its end the request hears of it. -/
theorem World.Shows.stepRun (h : w.Shows config place r) (hjob : r.jobs[n]? = some job) :
    w.Leads config (r.stepRun n job).2 := by
  obtain rfl := h.configured
  obtain ⟨⟨task, number, work⟩, he, hold⟩ := h.jobs n job hjob
  obtain rfl : task = job.task := hold.task
  have hstands := hold.run
  obtain ⟨request, task, store, run⟩ := job
  simp only at hstands he
  -- whatever becomes of the run, the request stays the same until it hears of its end
  have hshown : ∀ {run' given}, Supervision.Stands r.config.renderer task run' (.running given) →
      Job.Shown r.config r.stores.size ⟨request, task, store, run'⟩
        ⟨task, number, .running given⟩ :=
    fun hrun => ⟨rfl, hold.store, hold.counted, hrun⟩
  cases hstands with
  | idle => exact h.leads
  | @watch source g given hwait hg =>
    have hran := hg.act r.disk r.now
    have hact : (Rules.shell r.config).acts task r.disk (g.runAll r.disk r.now).2 :=
      ⟨source, g, r.now, hwait, hg, rfl⟩
    refine h.turn hjob he hold
      (fun other => .act task number given other r.disk source _ hwait hact) (hshown ?_)
    cases hwaited : (g.runAll r.disk r.now).1.waited? r.now with
    | none => exact .watch hwait hran
    | some waited =>
      rcases Shell.Group.waited?_cases hwaited with ⟨code, rfl⟩ | rfl
      · exact .kill hwait hran
      · exact .expire hwait
  | kill hwait hg => exact h.stay hjob he (hshown (.collect hwait hg))
  | expire hwait => exact h.stay hjob he (hshown (.reap hwait))
  | reap hwait => exact h.stay hjob he (hshown (.told hwait .outlived))
  | collect hwait hg => exact h.stay hjob he (hshown (.told hwait (.ended hg)))
  | @told source outcome given hwait hends =>
    exact h.turn hjob he hold
      (fun other => .finish task number given other r.disk source outcome hwait
        ⟨source, hwait, hends⟩)
      ⟨rfl, hold.store, hold.counted, .idle (.inr (Task.past_hear hwait outcome))⟩

/-- A request takes a step of its own. -/
theorem World.Shows.advance (h : w.Shows config place r) (hjob : r.jobs[n]? = some job)
    (hidle : job.run = .idle) (hwait : job.task.waiting? = none) :
    let next := job.task.step (Scratch.endingsFrom r.drawn) (r.stores.getD job.store r.store) r.disk
      r.now
    w.Leads config { r with
      drawn := r.drawn + 1
      stores := r.stores.setIfInBounds job.store next.2.1
      disk := next.2.2
      jobs := r.jobs.setIfInBounds n { job with task := next.1 } } := by
  intro next
  obtain ⟨⟨task, number, work⟩, he, hold⟩ := h.jobs n job hjob
  obtain rfl : task = job.task := hold.task
  have hshown : Job.Shown config r.stores.size { job with task := next.1 }
      ⟨next.1, number, work⟩ := by
    refine ⟨rfl, hold.store, hold.counted, ?_⟩
    have hstands := hold.run
    simp only [hidle] at hstands ⊢
    cases hstands with
    | idle hpast => exact .idle (hpast.imp_right fun hpast => hpast.step _ _ _ _)
  exact h.move hjob he hold.store (h.store hold.counted r.store).1
    (.advance job.task number work _ r.disk _ r.now hwait trivial
      (Scratch.drawn_endingsFrom r.drawn)) hshown (r.drawn + 1)

/-- Whatever a job does in a step, its request does in one step, or it stays as it is. -/
theorem World.Shows.stepJob (h : w.Shows config place r) (n : Nat) :
    w.Leads config (r.stepJob n).2 := by
  unfold Running.stepJob
  cases hjob : r.jobs[n]? with
  | none => exact h.leads
  | some job =>
    simp only
    split
    · next source hidle hwait => exact h.startRun hjob hidle hwait
    · exact h.leads
    · next hidle hwait _ => exact h.advance hjob hidle hwait
    · exact h.stepRun hjob

/-- What leads to one running service leads to all that it leads to. -/
theorem World.Leads.trans (h : w.Leads config r)
    (hnext : ∀ v place, World.Shows config place v r → v.Leads config r') : w.Leads config r' := by
  obtain ⟨n, v, place, hrun, hshows⟩ := h
  obtain ⟨m, v', place', hrun', hshows'⟩ := hnext v place hshows
  exact ⟨n + m, v', place', hrun.append hrun', hshows'⟩

theorem World.Leads.run (h : w.Leads config r) (fuel : Nat) (limit : Option Int)
    (stop : Running → Bool) : w.Leads config (r.run fuel limit stop) := by
  refine Running.run_keeps (P := w.Leads config)
    (fun _ n h => h.trans fun _ _ hshows => hshows.stepJob n) (fun _ now h => ?_) h fuel limit stop
  -- a world does not tell the time
  exact h.trans fun _ _ hshows => World.Shows.leads ⟨hshows.configured, hshows.stores,
    hshows.opened, hshows.disk, hshows.injective, hshows.jobs, hshows.others⟩

theorem Running.response?_eq (hjob : r.jobs[n]? = some job) :
    r.response? n = job.task.response?.map (·.finished job.request) := by
  rw [Running.response?, hjob]
  cases hresponse : job.task.response? <;> simp [hresponse]

/-- The response to a job is that of its request. -/
theorem World.Shows.response? (h : w.Shows config place r) (hjob : r.jobs[n]? = some job) :
    ∃ e, w.errands[place n]? = some e ∧
      r.response? n = e.task.response?.map (·.finished job.request) := by
  obtain ⟨e, he, hshown⟩ := h.jobs n job hjob
  exact ⟨e, he, by rw [hshown.task, Running.response?_eq hjob]⟩

/-! ## What is done with a running service -/

/-- The store in use is the last one of the world. -/
theorem World.Shows.current (h : w.Shows config place r) :
    w.stores[r.current]? = some r.store ∧ r.current + 1 = w.stores.length := by
  have hopened := h.opened
  have hlt : r.current < r.stores.size := by
    unfold Running.current
    omega
  refine ⟨(h.store hlt _).1, ?_⟩
  rw [h.stores, Array.length_toList]
  unfold Running.current
  omega

/-- The rules admit every request to the store in use. -/
theorem World.Shows.admits (h : w.Shows config place r) (request : Http.Request) :
    (Rules.shell config).admits w (.ofAction r.service request (.ofRequest request)) r.current := by
  refine ⟨h.current.2, r.store, request, h.current.1, ?_⟩
  rw [h.disk, ← h.configured]
  rfl

/-- The request of every job is in the world. -/
theorem World.Shows.place_lt (h : w.Shows config place r) (hn : n < r.jobs.size) :
    place n < w.errands.length := by
  obtain ⟨e, he, -⟩ := h.jobs n _ (Array.getElem?_eq_getElem hn)
  exact (List.getElem?_eq_some_iff.mp he).1

theorem World.Shows.accept (h : w.Shows config place r) (request : Http.Request) :
    w.Leads config (r.accept request) := by
  have hsize : (r.accept request).jobs.size = r.jobs.size + 1 := Array.size_push _
  -- the new request is the last one of the world, wherever the others are
  have hkeep : ∀ m, m < r.jobs.size →
      Function.update place r.jobs.size w.errands.length m = place m :=
    fun m hm => Function.update_of_ne (Nat.ne_of_lt hm) _ _
  have hlast : Function.update place r.jobs.size w.errands.length r.jobs.size =
      w.errands.length := Function.update_self ..
  refine ⟨1, _, Function.update place r.jobs.size w.errands.length,
    .tail (.refl w) (.accept w.stores w.disk w.errands _ r.current (h.admits request)),
    h.configured, h.stores, h.opened, h.disk, fun m n hm hn heq => ?_, fun m job hjob => ?_,
    fun i e he => ?_⟩
  · rw [hsize] at hm hn
    rcases Nat.lt_succ_iff_lt_or_eq.mp hm with hm | rfl <;>
      rcases Nat.lt_succ_iff_lt_or_eq.mp hn with hn | rfl
    · rw [hkeep m hm, hkeep n hn] at heq
      exact h.injective m n hm hn heq
    · rw [hkeep m hm, hlast] at heq
      exact absurd heq (Nat.ne_of_lt (h.place_lt hm))
    · rw [hkeep n hn, hlast] at heq
      exact absurd heq.symm (Nat.ne_of_lt (h.place_lt hn))
    · rfl
  · have hm := (Array.getElem?_eq_some_iff.mp hjob).1
    rw [hsize] at hm
    rcases Nat.lt_succ_iff_lt_or_eq.mp hm with hm | rfl
    · rw [hkeep m hm]
      have hjob' : r.jobs[m]? = some job := by
        simpa [Running.accept, Array.getElem?_push, hm.ne] using hjob
      obtain ⟨e, he, hshown⟩ := h.jobs m job hjob'
      exact ⟨e, (List.getElem?_append_left (h.place_lt hm)).trans he, hshown⟩
    · rw [hlast]
      obtain rfl : _ = job := by simpa [Running.accept] using hjob
      have hcurrent := (List.getElem?_eq_some_iff.mp h.current.1).1
      rw [h.stores, Array.length_toList] at hcurrent
      refine ⟨⟨_, r.current, .idle⟩, ?_, rfl, rfl, hcurrent, .idle (.inl rfl)⟩
      simp
  · rw [hsize]
    rcases getElem?_concat_some he with he | ⟨rfl, -⟩
    · refine (h.others i e he).imp_left fun ⟨n, hn, hplace⟩ => ?_
      exact ⟨n, Nat.lt_succ_of_lt hn, (hkeep n hn).trans hplace⟩
    · exact .inl ⟨r.jobs.size, Nat.lt_succ_self _, hlast⟩

/-- A request that is answered at once leaves the jobs as they are. -/
theorem World.Shows.handle (h : w.Shows config place r) (request : Http.Request) :
    w.Leads config (r.handle request).2 := by
  obtain rfl := h.configured
  obtain ⟨n, task, work, hrun, hresponse⟩ := World.Run.of_handle
    (Rules.shell_grants r.config r.now r.drawn) r.service request h.current.1 h.disk
    (h.admits request)
  refine ⟨n, _, place, hrun, rfl, ?_, ?_, rfl, h.injective, fun m job hjob => ?_, fun i e he => ?_⟩
  · show w.stores.set r.current _ = (r.stores.setIfInBounds r.current _).toList
    rw [Array.toList_setIfInBounds, h.stores]
    rfl
  · simpa [Running.handle, Running.withService] using h.opened
  · obtain ⟨e, he, hshown⟩ := h.jobs m job hjob
    refine ⟨e, (List.getElem?_append_left (List.getElem?_eq_some_iff.mp he).1).trans he, ?_⟩
    simpa [Running.handle, Running.withService] using hshown
  · rcases getElem?_concat_some he with he | ⟨-, rfl⟩
    · exact h.others i e he
    · obtain ⟨response, hsome, -⟩ := Option.map_eq_some_iff.mp hresponse
      exact .inr (Option.isSome_iff_exists.mpr ⟨response, hsome⟩)

/-- After a new start the requests from before it keep their stores. -/
theorem World.Shows.restart (h : w.Shows config place r) (hstart : r.restart.1 = .ok ()) :
    w.Leads config r.restart.2 := by
  obtain rfl := h.configured
  unfold Running.restart at hstart ⊢
  rcases hstarted : Service.start r.config r.disk with ⟨error | s, d⟩ <;> rw [hstarted] at hstart
  · cases hstart
  · have hreopen := World.Step.reopen (R := .shell r.config) w.stores w.disk w.errands r.config s d
      rfl (by rw [h.disk, hstarted])
    refine ⟨1, _, place, .tail (.refl w) hreopen, rfl, ?_, ?_, rfl, h.injective,
      fun m job hjob => ?_, h.others⟩
    · simp [h.stores]
    · simp
    · obtain ⟨e, he, hshown⟩ := h.jobs m job hjob
      refine ⟨e, he, hshown.task, hshown.store, ?_, hshown.run⟩
      rw [Array.size_push]
      exact Nat.lt_succ_of_lt hshown.counted

end Shows

/-- What may be done with a running service: it takes up a request, answers one at once, goes on
with those in progress, or is started again. -/
inductive Running.Does : Running → Running → Prop
  | accept (r request) : Does r (r.accept request)
  | handle (r request) : Does r (r.handle request).2
  | run (r fuel limit stop) : Does r (r.run fuel limit stop)
  | restart (r) (h : r.restart.1 = .ok ()) : Does r r.restart.2

/-- Whatever is done with a service that has been started is a run of the world, in which its
renderers are run in the shell. -/
theorem Running.leads_of_does {s : Service} {now : Int} {r : Running}
    (h : Relation.ReflTransGen Running.Does (.ofService s now) r) :
    World.Leads s.config ⟨[s.store], s.disk, []⟩ r := by
  induction h with
  | refl =>
    refine ⟨0, _, id, .refl _, rfl, rfl, Nat.one_pos, rfl, fun _ _ _ _ heq => heq,
      fun n job hjob => ?_, nofun⟩
    simp [Running.ofService] at hjob
  | tail _ hdoes ih =>
    cases hdoes with
    | accept request => exact ih.trans fun _ _ hshows => hshows.accept request
    | handle request => exact ih.trans fun _ _ hshows => hshows.handle request
    | run fuel limit stop => exact ih.run fuel limit stop
    | restart hstart => exact ih.trans fun _ _ hshows => hshows.restart hstart

end DiagramService
