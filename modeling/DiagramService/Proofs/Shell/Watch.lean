import DiagramService.Proofs.Render.Course
import DiagramService.Shell.Group

/-! The watch over a group of processes. Something happens at the end of its time at the latest, so
the leader has ended within the limit or the watch is over exactly then. What is learned of a group
is what would be learned of a renderer that takes some course. -/

namespace DiagramService

namespace Shell

namespace Group

/-! ## The end of its time -/

theorem runLeader_deadline (g : Group) (d : Disk) (now : Int) :
    (g.runLeader d now).1.deadline = g.deadline := by
  unfold runLeader
  split <;> rfl

theorem runHelper_deadline (g : Group) (d : Disk) (now : Int) (h : Helper) :
    (g.runHelper d now h).1.deadline = g.deadline := by
  unfold runHelper
  split <;> rfl

theorem runAll_deadline (g : Group) (d : Disk) (now : Int) :
    (g.runAll d now).1.deadline = g.deadline := by
  have hhelpers : ∀ (helpers : List Helper) (at_ : Group × Disk),
      (helpers.foldl (fun at_ h => at_.1.runHelper at_.2 now h) at_).1.deadline =
        at_.1.deadline := by
    intro helpers
    induction helpers with
    | nil => exact fun _ => rfl
    | cons h helpers ih => exact fun at_ => (ih _).trans (runHelper_deadline ..)
  unfold runAll
  rw [runLeader_deadline, hhelpers]

/-- Something happens at the end of its time at the latest. -/
theorem nextTime?_le {g : Group} {deadline time : Int} (hdeadline : g.deadline = some deadline)
    (h : g.nextTime? = some time) : time ≤ deadline := by
  unfold nextTime? at h
  refine (List.min?_eq_some_iff.mp h).2 deadline ?_
  simp [hdeadline]

/-! ## What is learned of a group -/

/-- A group is at work within the limit of its leader. -/
structure Timely (config : RendererConfig) (start : Int) (g : Group) (now : Int) : Prop where
  deadline : g.deadline = config.limit?.map fun limit => start + 1000 * (limit : Int)
  begun : start ≤ now
  within : ∀ limit : Nat, config.limit? = some limit → now ≤ start + 1000 * limit

section Timely

variable {config : RendererConfig} {start now : Int} {g : Group}

theorem Timely.runAll (h : Timely config start g now) (d : Disk) :
    Timely config start (g.runAll d now).1 now :=
  ⟨(runAll_deadline g d now).trans h.deadline, h.begun, h.within⟩

/-- Until the next time the limit is not over if it is not over now. -/
theorem Timely.next (h : Timely config start g now) {time : Int}
    (hnext : g.nextTime? = some time) : Timely config start g (max now time) := by
  refine ⟨h.deadline, Int.le_trans h.begun (Int.le_max_left now time), fun limit hlimit => ?_⟩
  refine Int.max_le.mpr ⟨h.within limit hlimit, nextTime?_le ?_ hnext⟩
  rw [h.deadline, hlimit]
  rfl

/-- The wait is over with the leader or with its time. -/
theorem waited?_cases {waited : Waited} (h : g.waited? now = some waited) :
    (∃ code, waited = .exited code) ∨ waited = .expired := by
  unfold waited? at h
  split at h
  · cases h
    exact .inl ⟨_, rfl⟩
  · cases h
    exact .inl ⟨_, rfl⟩
  · split at h
    · cases h
      exact .inr rfl
    · cases h

/-- So is the watch. -/
theorem outcome?_cases {outcome : RunOutcome} (h : g.outcome? now = some outcome) :
    (∃ code, outcome = .ended code g.printed.errors) ∨ outcome = .outlived := by
  obtain ⟨waited, hwaited, rfl⟩ := Option.map_eq_some_iff.mp h
  rcases waited?_cases hwaited with ⟨code, rfl⟩ | rfl
  · exact .inl ⟨code, rfl⟩
  · exact .inr rfl

/-- The end of a leader within the limit is learned in some course. -/
theorem Timely.ended (h : Timely config start g now) (code : Option Int) (printed : Printout)
    (d : Disk) : ∃ course, config.follow? course = some (.ended code printed.errors, d) := by
  refine ⟨⟨some ((now - start).toNat, code), fun _ => d, fun _ => printed⟩, ?_⟩
  refine RendererConfig.follow?_of_ending rfl (RendererConfig.allows_iff.mpr fun limit hlimit => ?_)
  have hwithin := h.within limit hlimit
  omega

/-- So is that a leader has not ended, if there is a limit. -/
theorem outlived_follows (hlimit : config.timeoutSeconds ≠ 0) (d : Disk) :
    ∃ course, config.follow? course = some (.outlived, d) :=
  ⟨⟨none, fun _ => d, fun _ => ⟨[], []⟩⟩,
    RendererConfig.follow?_of_outlasts (UInt64.pos_iff_ne_zero.mpr hlimit) nofun⟩

/-- A group that is watched until the end of its leader or of its time has done what a renderer does
in some course. -/
theorem Timely.finish (h : Timely config start g now) (fuel : Nat) (d : Disk)
    (hlimit : (g.finish fuel d now).1 = .outlived → config.timeoutSeconds ≠ 0) :
    ∃ course, config.follow? course = some (g.finish fuel d now) := by
  induction fuel generalizing g d now with
  | zero => exact outlived_follows (hlimit rfl) d
  | succ fuel ih =>
    have hran := h.runAll d
    unfold Group.finish at hlimit ⊢
    generalize g.runAll d now = ran at hlimit hran ⊢
    obtain ⟨g', d'⟩ := ran
    simp only at hlimit hran ⊢
    cases houtcome : g'.outcome? now with
    | some outcome =>
      rw [houtcome] at hlimit
      obtain ⟨code, rfl⟩ | rfl := outcome?_cases houtcome
      · exact hran.ended code g'.printed d'
      · exact outlived_follows (hlimit rfl) d'
    | none =>
      rw [houtcome] at hlimit
      cases hnext : g'.nextTime? with
      | none =>
        rw [hnext] at hlimit
        exact outlived_follows (hlimit rfl) d'
      | some time =>
        rw [hnext] at hlimit
        exact ih (hran.next hnext) d' hlimit

end Timely

theorem timely_start {config : RendererConfig} {source : Path} {d : Disk} {now : Int} {g : Group}
    (h : Group.start config source d now = .ok g) : Timely config now g now := by
  unfold Group.start at h
  split at h
  · cases h
  · cases h
    exact ⟨rfl, Int.le_refl now, fun limit _ => by omega⟩

end Group

/-- A renderer that is run in the shell is one that some system runs. Only where it is given up
without a limit there would be no end to the wait. -/
theorem renderer_follows_system (config : RendererConfig) (now : Int) (source : Path) (d : Disk)
    (hlimit : (renderer config now source d).1 = .outlived → config.timeoutSeconds ≠ 0) :
    ∃ system, config.run? system source d = some (renderer config now source d) := by
  unfold renderer at hlimit ⊢
  split at hlimit
  · next cause _ => exact ⟨fun _ _ _ => .error cause, rfl⟩
  · next g hstart =>
    obtain ⟨course, hfollow⟩ := (Group.timely_start hstart).finish endless d hlimit
    exact ⟨fun _ _ _ => .ok course, hfollow⟩

/-- So is an invocation of it. -/
theorem perform_follows_system (i : Invocation) (d : Disk) (now : Int)
    (hlimit : ∀ e, (renderer i.config now i.files.source e).1 = .outlived →
      i.config.timeoutSeconds ≠ 0) :
    ∃ system, i.perform? system d now = some (i.perform (renderer i.config now) d now) := by
  obtain ⟨system, hrun⟩ :=
    renderer_follows_system i.config now i.files.source (i.prepare d now).2 (hlimit _)
  refine ⟨system, Invocation.perform?_eq_perform fun e hprepare => ?_⟩
  rwa [hprepare] at hrun

end Shell

end DiagramService
