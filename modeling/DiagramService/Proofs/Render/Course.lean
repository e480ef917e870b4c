import Mathlib
import DiagramService.Proofs.Render.Invocation
import DiagramService.Render.Course

/-! What an invocation comes to, by the course that its renderer takes. Each result has conditions
of its own, and they tell the results apart. -/

namespace DiagramService

/-! ## The wait -/

namespace Course

/-- A renderer does not end by itself up to a time. -/
def Outlasts (course : Course) (time : Nat) : Prop :=
  ∀ ending code, course.ending? = some (ending, code) → time < ending

section Wait

variable {course : Course} {limit? : Option Nat} {time ending : Nat} {code : Option Int}
  {waited : Waited}

theorem ended?_of_ending (h : course.ending? = some (ending, code)) :
    course.ended? time = if ending ≤ time then some code else none := by
  unfold ended?
  rw [h]

theorem outlasts_of_ending (h : course.ending? = some (ending, code)) :
    course.Outlasts time ↔ time < ending := by
  refine ⟨fun hlasts => hlasts ending code h, fun hlt ending' code' h' => ?_⟩
  cases h.symm.trans h'
  exact hlt

theorem ended?_eq_none_iff : course.ended? time = none ↔ course.Outlasts time := by
  cases h : course.ending? with
  | none => simp [ended?, Outlasts, h]
  | some last => simp [ended?_of_ending h, outlasts_of_ending h]

theorem waited?_eq_none_iff : course.waited? limit? time = none ↔
    course.Outlasts time ∧ ∀ limit, limit? = some limit → time < 1000 * limit := by
  rw [← ended?_eq_none_iff, waited?]
  cases course.ended? time with
  | some code => simp
  | none => cases limit? <;> simp

theorem wait?_of_ending (h : course.ending? = some (ending, code))
    (hlimit : ∀ limit, limit? = some limit → ending ≤ 1000 * limit) :
    course.wait? limit? = some (ending, .exited code) := by
  cases limit? with
  | none => simp [wait?, h]
  | some limit => simp [wait?, h, hlimit limit rfl]

theorem wait?_of_outlasts {limit : Nat} (h : course.Outlasts (1000 * limit)) :
    course.wait? (some limit) = some (1000 * limit, .expired) := by
  cases hending : course.ending? with
  | none => simp [wait?, hending]
  | some last =>
    have hlt := h last.1 last.2 hending
    simp [wait?, hending, Nat.not_le_of_lt hlt]

theorem wait?_of_endless (h : course.ending? = none) : course.wait? none = none := by
  simp [wait?, h]

/-- A renderer ends within the limit, or the limit is over, or there is no end to the wait. -/
theorem ending_cases (course : Course) (limit? : Option Nat) :
    (∃ time code, course.ending? = some (time, code) ∧
      ∀ limit, limit? = some limit → time ≤ 1000 * limit) ∨
    (∃ limit, limit? = some limit ∧ course.Outlasts (1000 * limit)) ∨
    (course.ending? = none ∧ limit? = none) := by
  cases hending : course.ending? with
  | none =>
    cases limit? with
    | none => exact .inr (.inr ⟨rfl, rfl⟩)
    | some limit =>
      refine .inr (.inl ⟨limit, rfl, fun ending code h => ?_⟩)
      cases hending.symm.trans h
  | some last =>
    obtain ⟨time, code⟩ := last
    cases limit? with
    | none => exact .inl ⟨time, code, rfl, nofun⟩
    | some limit =>
      by_cases hle : time ≤ 1000 * limit
      · refine .inl ⟨time, code, rfl, ?_⟩
        rintro _ ⟨⟩
        exact hle
      · refine .inr (.inl ⟨limit, rfl, ?_⟩)
        exact (outlasts_of_ending hending).mpr (Nat.lt_of_not_le hle)

theorem waited?_of_wait? (h : course.wait? limit? = some (time, waited)) :
    course.waited? limit? time = some waited ∧
      ∀ earlier < time, course.waited? limit? earlier = none := by
  obtain ⟨ending, code, hending, hlimit⟩ | ⟨limit, rfl, hlasts⟩ | ⟨hending, rfl⟩ :=
    course.ending_cases limit?
  · cases h.symm.trans (wait?_of_ending hending hlimit)
    refine ⟨by simp [waited?, ended?_of_ending hending], fun earlier hlt => ?_⟩
    refine waited?_eq_none_iff.mpr ⟨(outlasts_of_ending hending).mpr hlt, fun limit h => ?_⟩
    exact Nat.lt_of_lt_of_le hlt (hlimit limit h)
  · cases h.symm.trans (wait?_of_outlasts hlasts)
    refine ⟨by simp [waited?, ended?_eq_none_iff.mpr hlasts], fun earlier hlt => ?_⟩
    refine waited?_eq_none_iff.mpr ⟨fun ending code hending => ?_, fun limit' h => ?_⟩
    · exact Nat.lt_trans hlt (hlasts ending code hending)
    · cases h
      exact hlt
  · cases h.symm.trans (wait?_of_endless hending)

/-- Nothing ever comes of a wait without end. -/
theorem waited?_of_wait?_eq_none (h : course.wait? limit? = none) (time : Nat) :
    course.waited? limit? time = none := by
  obtain ⟨_, _, hending, hlimit⟩ | ⟨limit, rfl, hlasts⟩ | ⟨hending, rfl⟩ :=
    course.ending_cases limit?
  · cases h.symm.trans (wait?_of_ending hending hlimit)
  · cases h.symm.trans (wait?_of_outlasts hlasts)
  · refine waited?_eq_none_iff.mpr ⟨fun ending code h => ?_, nofun⟩
    cases hending.symm.trans h

/-- The wait is over at the first time at which something has come of it. -/
theorem wait?_eq_some_iff : course.wait? limit? = some (time, waited) ↔
    course.waited? limit? time = some waited ∧
      ∀ earlier < time, course.waited? limit? earlier = none := by
  refine ⟨waited?_of_wait?, fun ⟨hwaited, hfirst⟩ => ?_⟩
  cases hwait : course.wait? limit? with
  | none => cases (waited?_of_wait?_eq_none hwait time).symm.trans hwaited
  | some last =>
    obtain ⟨time', waited'⟩ := last
    obtain ⟨hwaited', hfirst'⟩ := waited?_of_wait? hwait
    obtain hlt | rfl | hlt := Nat.lt_trichotomy time time'
    · cases (hfirst' time hlt).symm.trans hwaited
    · cases hwaited.symm.trans hwaited'
      rfl
    · cases (hfirst time' hlt).symm.trans hwaited'

end Wait

end Course

namespace RendererConfig

variable {config : RendererConfig}

/-- A renderer may take until a time. -/
def Allows (config : RendererConfig) (time : Nat) : Prop :=
  config.timeoutSeconds = 0 ∨ time ≤ 1000 * config.timeoutSeconds.toNat

theorem limit?_eq_none_iff : config.limit? = none ↔ config.timeoutSeconds = 0 := by
  simp [limit?]

theorem limit?_eq_some_iff {limit : Nat} : config.limit? = some limit ↔
    0 < config.timeoutSeconds ∧ config.timeoutSeconds.toNat = limit := by
  rw [UInt64.pos_iff_ne_zero]
  simp [limit?]

theorem allows_iff {time : Nat} : config.Allows time ↔
    ∀ limit, config.limit? = some limit → time ≤ 1000 * limit := by
  simp only [limit?_eq_some_iff, UInt64.pos_iff_ne_zero]
  refine ⟨fun h limit hlimit => ?_, fun h => ?_⟩
  · obtain ⟨hne, rfl⟩ := hlimit
    exact h.resolve_left hne
  · by_cases hzero : config.timeoutSeconds = 0
    · exact .inl hzero
    · exact .inr (h _ ⟨hzero, rfl⟩)

theorem follow?_of_ending {course : Course} {time : Nat} {code : Option Int}
    (h : course.ending? = some (time, code)) (hallows : config.Allows time) :
    config.follow? course = some (.ended code (course.printed time).errors, course.disk time) := by
  rw [follow?, Course.wait?_of_ending h (allows_iff.mp hallows)]
  rfl

theorem follow?_of_outlasts {course : Course} (hpos : 0 < config.timeoutSeconds)
    (h : course.Outlasts (1000 * config.timeoutSeconds.toNat)) :
    config.follow? course = some (.outlived, course.disk (1000 * config.timeoutSeconds.toNat)) := by
  rw [follow?, limit?_eq_some_iff.mpr ⟨hpos, rfl⟩, Course.wait?_of_outlasts h]
  rfl

theorem follow?_of_endless {course : Course} (hzero : config.timeoutSeconds = 0)
    (h : course.ending? = none) : config.follow? course = none := by
  rw [follow?, limit?_eq_none_iff.mpr hzero, Course.wait?_of_endless h]
  rfl

end RendererConfig

/-! ## The result -/

namespace Invocation

section Stage

variable (i : Invocation) (system : System) (d : Disk) (now : Int)

/-- The renderer is started and takes a course. -/
def Launches (course : Course) : Prop :=
  ∃ e, i.prepare d now = (.run, e) ∧ i.config.launch system i.files.source e = .ok course

/-- The renderer cannot be started. -/
def Refuses (cause : IoError) : Prop :=
  ∃ e, i.prepare d now = (.run, e) ∧ i.config.launch system i.files.source e = .error cause

/-- The renderer ends within its time. -/
def Ends (code : Option Int) (printed : Printout) (left : Disk) : Prop :=
  ∃ course time, i.Launches system d now course ∧ course.ending? = some (time, code) ∧
    i.config.Allows time ∧ course.printed time = printed ∧ course.disk time = left

/-- What an invocation comes to, with what has led to it. -/
inductive Fate : Option (Except RenderError Bytes) → Prop
  | blocked (cause) (h : i.Blocked d now cause) : Fate (some (.error (.io cause)))
  | refused (cause) (h : i.Refuses system d now cause) :
    Fate (some (.error (.spawnFailure i.config.command cause)))
  | expired (course) (h : i.Launches system d now course) (hlimit : 0 < i.config.timeoutSeconds)
    (hlasts : course.Outlasts (1000 * i.config.timeoutSeconds.toNat)) :
    Fate (some (.error (.timeout (.ofSeconds i.config.timeoutSeconds.toNat))))
  | endless (course) (h : i.Launches system d now course) (hlimit : i.config.timeoutSeconds = 0)
    (hending : course.ending? = none) : Fate none
  | failed (code printed left) (h : i.Ends system d now code printed left)
    (hcode : code ≠ some 0) :
    Fate (some (.error (.toolFailure code (complaint printed.errors))))
  | drawn (printed left image) (h : i.Ends system d now (some 0) printed left)
    (himage : left.contentAt i.files.image = .ok image) : Fate (some (.ok image))
  | missing (printed left cause) (h : i.Ends system d now (some 0) printed left)
    (himage : left.contentAt i.files.image = .error cause) (hkind : cause.kind = .notFound) :
    Fate (some (.error (.outputMissing i.files.image)))
  | unreadable (printed left cause) (h : i.Ends system d now (some 0) printed left)
    (himage : left.contentAt i.files.image = .error cause) (hkind : cause.kind ≠ .notFound) :
    Fate (some (.error (.io cause)))

end Stage

section Fate

variable {i : Invocation} {system : System} {d e left : Disk} {now : Int} {course : Course}
  {code : Option Int} {printed : Printout} {cause : IoError}

/-- If there is an end to the wait, only what is learned of a renderer and what it leaves count. -/
theorem perform?_eq_perform {renderer : Renderer}
    (h : ∀ e, i.prepare d now = (.run, e) →
      i.config.run? system i.files.source e = some (renderer i.files.source e)) :
    i.perform? system d now = some (i.perform renderer d now) := by
  obtain ⟨e, hprepare⟩ | ⟨cause, hblocked⟩ := i.prepare_cases d now
  · simp only [perform?, perform, hprepare, h e hprepare]
    rfl
  · obtain ⟨e, hprepare⟩ := prepare_of_blocked hblocked
    simp only [perform?, perform, hprepare]
    rfl

theorem result?_of_prepare (h : i.prepare d now = (.run, e)) : i.result? system d now =
    (i.config.run? system i.files.source e).map fun ran =>
      (i.finish (i.afterRun ran.1) ran.2).1 := by
  unfold result? perform?
  rw [h]
  exact Option.map_map ..

theorem result?_of_blocked (h : i.Blocked d now cause) :
    i.result? system d now = some (.error (.io cause)) := by
  obtain ⟨e, hprepare⟩ := prepare_of_blocked h
  unfold result? perform?
  rw [hprepare]
  rfl

theorem result?_of_refuses (h : i.Refuses system d now cause) : i.result? system d now =
    some (.error (.spawnFailure i.config.command cause)) := by
  obtain ⟨e, hprepare, hlaunch⟩ := h
  rw [result?_of_prepare hprepare, RendererConfig.run?, hlaunch]
  rfl

theorem result?_of_launches (h : i.Launches system d now course) : i.result? system d now =
    (i.config.follow? course).map fun ran => (i.finish (i.afterRun ran.1) ran.2).1 := by
  obtain ⟨e, hprepare, hlaunch⟩ := h
  rw [result?_of_prepare hprepare, RendererConfig.run?, hlaunch]

theorem result?_of_ends (h : i.Ends system d now code printed left) : i.result? system d now =
    some (i.finish (i.afterRun (.ended code printed.errors)) left).1 := by
  obtain ⟨course, time, hlaunch, hending, hallows, rfl, rfl⟩ := h
  rw [result?_of_launches hlaunch, RendererConfig.follow?_of_ending hending hallows]
  rfl

theorem result?_of_endsWell (h : i.Ends system d now (some 0) printed left) :
    i.result? system d now = some (i.read left) := by
  rw [result?_of_ends h]
  rfl

/-- An invocation comes to something, if only to a wait without end. -/
theorem exists_fate (i : Invocation) (system : System) (d : Disk) (now : Int) :
    ∃ result, i.Fate system d now result := by
  obtain ⟨e, hprepare⟩ | ⟨cause, hblocked⟩ := i.prepare_cases d now
  · cases hlaunch : i.config.launch system i.files.source e with
    | error cause => exact ⟨_, .refused cause ⟨e, hprepare, hlaunch⟩⟩
    | ok course =>
      have hlaunches : i.Launches system d now course := ⟨e, hprepare, hlaunch⟩
      obtain ⟨time, code, hending, hlimit⟩ | ⟨limit, hlimit, hlasts⟩ | ⟨hending, hlimit⟩ :=
        course.ending_cases i.config.limit?
      · have hends : i.Ends system d now code (course.printed time) (course.disk time) :=
          ⟨course, time, hlaunches, hending, RendererConfig.allows_iff.mpr hlimit, rfl, rfl⟩
        by_cases hcode : code = some 0
        · subst hcode
          cases himage : (course.disk time).contentAt i.files.image with
          | ok image => exact ⟨_, .drawn _ _ image hends himage⟩
          | error cause =>
            by_cases hkind : cause.kind = .notFound
            · exact ⟨_, .missing _ _ cause hends himage hkind⟩
            · exact ⟨_, .unreadable _ _ cause hends himage hkind⟩
        · exact ⟨_, .failed code _ _ hends hcode⟩
      · obtain ⟨hpos, rfl⟩ := RendererConfig.limit?_eq_some_iff.mp hlimit
        exact ⟨_, .expired course hlaunches hpos hlasts⟩
      · exact ⟨_, .endless course hlaunches (RendererConfig.limit?_eq_none_iff.mp hlimit) hending⟩
  · exact ⟨_, .blocked cause hblocked⟩

/-- It comes to one thing only. -/
theorem Fate.unique {result : Option (Except RenderError Bytes)}
    (h : i.Fate system d now result) : i.result? system d now = result := by
  cases h with
  | blocked cause h => exact result?_of_blocked h
  | refused cause h => exact result?_of_refuses h
  | expired course h hlimit hlasts =>
    rw [result?_of_launches h, RendererConfig.follow?_of_outlasts hlimit hlasts]
    rfl
  | endless course h hlimit hending =>
    rw [result?_of_launches h, RendererConfig.follow?_of_endless hlimit hending]
    rfl
  | failed code printed left h hcode =>
    rw [result?_of_ends h, afterRun, if_neg hcode]
    rfl
  | drawn printed left image h himage =>
    rw [result?_of_endsWell h, read, himage]
  | missing printed left cause h himage hkind =>
    rw [result?_of_endsWell h, read, himage]
    simp only [hkind, if_true]
  | unreadable printed left cause h himage hkind =>
    rw [result?_of_endsWell h, read, himage]
    simp only [hkind, if_false]

/-- The result is what the invocation comes to. -/
theorem fate_iff {result : Option (Except RenderError Bytes)} :
    i.Fate system d now result ↔ i.result? system d now = result := by
  refine ⟨Fate.unique, ?_⟩
  rintro rfl
  obtain ⟨result, hfate⟩ := i.exists_fate system d now
  rwa [hfate.unique]

/-! ## One kind of result at a time -/

theorem blocked_iff : i.Blocked d now cause ↔
    (∀ e, i.prepare d now ≠ (.run, e)) ∧ i.result? system d now = some (.error (.io cause)) := by
  refine ⟨fun h => ⟨fun e hrun => ?_, result?_of_blocked h⟩, fun ⟨hrun, hresult⟩ => ?_⟩
  · obtain ⟨e', hdone⟩ := prepare_of_blocked h
    cases hdone.symm.trans hrun
  · obtain ⟨e, hprepare⟩ | ⟨cause', hblocked⟩ := i.prepare_cases d now
    · exact absurd hprepare (hrun e)
    · cases (result?_of_blocked hblocked).symm.trans hresult
      exact hblocked

theorem result?_eq_spawnFailure_iff {command : String} :
    i.result? system d now = some (.error (.spawnFailure command cause)) ↔
      i.Refuses system d now cause ∧ command = i.config.command := by
  rw [← fate_iff]
  constructor
  · intro h
    cases h with
    | refused cause h => exact ⟨h, rfl⟩
  · rintro ⟨h, rfl⟩
    exact .refused cause h

theorem result?_eq_timeout_iff {after : Duration} :
    i.result? system d now = some (.error (.timeout after)) ↔
      0 < i.config.timeoutSeconds ∧
      (∃ course, i.Launches system d now course ∧
        course.Outlasts (1000 * i.config.timeoutSeconds.toNat)) ∧
      after = .ofSeconds i.config.timeoutSeconds.toNat := by
  rw [← fate_iff]
  constructor
  · intro h
    cases h with
    | expired course h hlimit hlasts => exact ⟨hlimit, ⟨course, h, hlasts⟩, rfl⟩
  · rintro ⟨hlimit, ⟨course, h, hlasts⟩, rfl⟩
    exact .expired course h hlimit hlasts

theorem result?_eq_toolFailure_iff {stderr : String} :
    i.result? system d now = some (.error (.toolFailure code stderr)) ↔ code ≠ some 0 ∧
      ∃ printed left, i.Ends system d now code printed left ∧
        stderr = complaint printed.errors := by
  rw [← fate_iff]
  constructor
  · intro h
    cases h with
    | failed code printed left h hcode => exact ⟨hcode, printed, left, h, rfl⟩
  · rintro ⟨hcode, printed, left, h, rfl⟩
    exact .failed code printed left h hcode

theorem result?_eq_ok_iff {image : Bytes} : i.result? system d now = some (.ok image) ↔
    ∃ printed left, i.Ends system d now (some 0) printed left ∧
      left.contentAt i.files.image = .ok image := by
  rw [← fate_iff]
  constructor
  · intro h
    cases h with
    | drawn printed left image h himage => exact ⟨printed, left, h, himage⟩
  · rintro ⟨printed, left, h, himage⟩
    exact .drawn printed left image h himage

theorem result?_eq_outputMissing_iff {path : Path} :
    i.result? system d now = some (.error (.outputMissing path)) ↔
      (∃ printed left cause, i.Ends system d now (some 0) printed left ∧
        left.contentAt i.files.image = .error cause ∧ cause.kind = .notFound) ∧
      path = i.files.image := by
  rw [← fate_iff]
  constructor
  · intro h
    cases h with
    | missing printed left cause h himage hkind =>
      exact ⟨⟨printed, left, cause, h, himage, hkind⟩, rfl⟩
  · rintro ⟨⟨printed, left, cause, h, himage, hkind⟩, rfl⟩
    exact .missing printed left cause h himage hkind

theorem result?_eq_io_iff : i.result? system d now = some (.error (.io cause)) ↔
    i.Blocked d now cause ∨ ∃ printed left, i.Ends system d now (some 0) printed left ∧
      left.contentAt i.files.image = .error cause ∧ cause.kind ≠ .notFound := by
  rw [← fate_iff]
  constructor
  · intro h
    cases h with
    | blocked cause h => exact .inl h
    | unreadable printed left cause h himage hkind => exact .inr ⟨printed, left, h, himage, hkind⟩
  · rintro (h | ⟨printed, left, h, himage, hkind⟩)
    · exact .blocked cause h
    · exact .unreadable printed left cause h himage hkind

theorem result?_eq_none_iff : i.result? system d now = none ↔ i.config.timeoutSeconds = 0 ∧
    ∃ course, i.Launches system d now course ∧ course.ending? = none := by
  rw [← fate_iff]
  constructor
  · intro h
    cases h with
    | endless course h hlimit hending => exact ⟨hlimit, course, h, hending⟩
  · rintro ⟨hlimit, course, h, hending⟩
    exact .endless course h hlimit hending

end Fate

end Invocation

/-- An error of files comes without a run of the renderer just if the source cannot be written or
there is an image that cannot be removed. All other results have their conditions after that: the
renderer cannot be started; it does not end within its limit, if there is one; it ends, but not with
zero, whatever it has left; it ends with zero, and the image can be read, is missing, or cannot be
read. Nothing is come to just if there is no limit and the renderer does not end. -/
theorem results_are_classified (i : Invocation) (system : System) (d : Disk) (now : Int) :
    (∀ cause, ((∀ e, i.prepare d now ≠ (.run, e)) ∧
      i.result? system d now = some (.error (.io cause))) ↔ i.Blocked d now cause) ∧
    (∀ command cause, i.result? system d now = some (.error (.spawnFailure command cause)) ↔
      i.Refuses system d now cause ∧ command = i.config.command) ∧
    (∀ after, i.result? system d now = some (.error (.timeout after)) ↔
      0 < i.config.timeoutSeconds ∧
      (∃ course, i.Launches system d now course ∧
        course.Outlasts (1000 * i.config.timeoutSeconds.toNat)) ∧
      after = .ofSeconds i.config.timeoutSeconds.toNat) ∧
    (∀ code stderr, i.result? system d now = some (.error (.toolFailure code stderr)) ↔
      code ≠ some 0 ∧ ∃ printed left, i.Ends system d now code printed left ∧
        stderr = complaint printed.errors) ∧
    (∀ image, i.result? system d now = some (.ok image) ↔
      ∃ printed left, i.Ends system d now (some 0) printed left ∧
        left.contentAt i.files.image = .ok image) ∧
    (∀ path, i.result? system d now = some (.error (.outputMissing path)) ↔
      (∃ printed left cause, i.Ends system d now (some 0) printed left ∧
        left.contentAt i.files.image = .error cause ∧ cause.kind = .notFound) ∧
      path = i.files.image) ∧
    (∀ cause, i.result? system d now = some (.error (.io cause)) ↔
      i.Blocked d now cause ∨ ∃ printed left, i.Ends system d now (some 0) printed left ∧
        left.contentAt i.files.image = .error cause ∧ cause.kind ≠ .notFound) ∧
    (i.result? system d now = none ↔ i.config.timeoutSeconds = 0 ∧
      ∃ course, i.Launches system d now course ∧ course.ending? = none) :=
  ⟨fun _ => Invocation.blocked_iff.symm, fun _ _ => Invocation.result?_eq_spawnFailure_iff,
    fun _ => Invocation.result?_eq_timeout_iff, fun _ _ => Invocation.result?_eq_toolFailure_iff,
    fun _ => Invocation.result?_eq_ok_iff, fun _ => Invocation.result?_eq_outputMissing_iff,
    fun _ => Invocation.result?_eq_io_iff, Invocation.result?_eq_none_iff⟩

/-- A renderer that leaves an image and complains about the text. -/
def complainer : System := fun _ _ d =>
  .ok ⟨some (5, some 3), fun _ => d.set ["a.png".toList] (.file [1] 5),
    fun _ => ⟨[], Utf8.encode " Syntax Error? \n"⟩⟩

/-- A text for a file in the working directory. -/
def sketch : Invocation :=
  ⟨.standard, "a", .forSource ⟨"a.puml".toList⟩⟩

/-- The complaint is heard, and the image is not returned. -/
theorem complainer_is_classified :
    sketch.result? complainer .empty 5 = some (.error (.toolFailure (some 3) "Syntax Error?")) ∧
    ∃ course, sketch.Launches complainer .empty 5 course ∧
      (course.disk 5).contentAt sketch.files.image = .ok [1] := by
  have hlaunches : sketch.Launches complainer .empty 5 _ := ⟨_, by cbv, rfl⟩
  obtain ⟨-, -, -, htool, -⟩ := results_are_classified sketch complainer .empty 5
  refine ⟨(htool _ _).mpr ⟨by decide, _, _, ⟨_, 5, hlaunches, rfl, .inr (by decide), rfl, rfl⟩, ?_⟩,
    _, hlaunches, ?_⟩
  · cbv
  · cbv

end DiagramService
