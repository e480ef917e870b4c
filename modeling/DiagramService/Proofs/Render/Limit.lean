import DiagramService.CommandLine.Run
import DiagramService.Proofs.Number.Shortest
import DiagramService.Proofs.Render.Course

/-! How the limit of a renderer is shown: as it is configured in the status, and in single precision
when it is over. -/

namespace DiagramService

open Number

/-! ## In single precision -/

namespace Duration

variable {n : Nat}

theorem toSingle_ofSeconds (hn : n ≠ 0) : (ofSeconds n).toSingle = single.round n := by
  have hzero : (single.round 0).toRat = 0 := by
    rw [Format.round_zero]
    exact zero_mul _
  have hb := Format.normal_round_natCast (f := single) (by decide) (by decide) hn
  have hpos : 0 < (single.round n).toRat :=
    (Binary.reads_bounds hb.mantissa_ne_zero (Binary.reads_toRat single _)).1
  unfold toSingle ofSeconds
  simp only [Nat.cast_zero, hzero, zero_div, add_zero]
  exact Format.round_of_reads (by decide) hb hpos (Binary.reads_toRat _ _)

/-- Whole seconds are shown without a fraction. -/
theorem exists_text_ofSeconds (hn : n ≠ 0) :
    ∃ shown : Nat, (ofSeconds n).text = Text.natText shown ∧ single.Shows n shown := by
  obtain ⟨shown, htext, hshows⟩ :=
    Format.exists_shows (f := single) (by decide) (by decide) .up hn
  refine ⟨shown, ?_, hshows⟩
  rw [text, toSingle_ofSeconds hn, htext]
  rfl

end Duration

/-! ## In the status -/

namespace CommandLine

theorem limitText_of_pos {config : RendererConfig} (h : 0 < config.timeoutSeconds) :
    limitText config = Text.natText config.timeoutSeconds.toNat ++ "s" := by
  rw [limitText, RendererConfig.limit?_eq_some_iff.mpr ⟨h, rfl⟩]

theorem exists_rest {text start more : String} (h : ∃ rest, text = start ++ rest) :
    ∃ rest, text ++ more = start ++ rest := by
  obtain ⟨rest, rfl⟩ := h
  exact ⟨rest ++ more, String.append_assoc⟩

/-- The status shows the limit before the directories. -/
theorem exists_statusText (s : Surroundings) : ∃ before rest, statusText s =
    before ++ "\n  Timeout:   " ++ limitText (Config.ofEnvironment s.disk s.lookup).renderer ++
      "\n  Save dir:  " ++ rest := by
  unfold statusText
  dsimp only
  apply Exists.intro
  -- the two directories and the commands come after it
  iterate 6 apply exists_rest
  exact ⟨"", String.append_empty.symm⟩

end CommandLine

theorem RenderError.message_timeout (after : Duration) :
    (RenderError.timeout after).message = "Renderer timed out after " ++ after.text ++ "s" :=
  rfl

/-- When a renderer has been stopped at the end of its time, the status shows the limit that is
configured. The error shows a number that is the same in single precision, which is the limit itself
up to `2 ^ 24` seconds. -/
theorem expired_limit_is_shown {i : Invocation} {system : System} {d : Disk} {now : Int}
    {after : Duration} (h : i.result? system d now = some (.error (.timeout after))) :
    (∃ shown : Nat, single.Shows i.config.timeoutSeconds.toNat shown ∧
      (RenderError.timeout after).message =
        "Renderer timed out after " ++ Text.natText shown ++ "s") ∧
    ∀ s : CommandLine.Surroundings, (Config.ofEnvironment s.disk s.lookup).renderer = i.config →
      ∃ before rest, (CommandLine.run s []).output = before ++ "\n  Timeout:   " ++
        (Text.natText i.config.timeoutSeconds.toNat ++ "s") ++ "\n  Save dir:  " ++ rest := by
  obtain ⟨hpos, -, rfl⟩ := Invocation.result?_eq_timeout_iff.mp h
  constructor
  · have hne : i.config.timeoutSeconds.toNat ≠ 0 := (UInt64.lt_iff_toNat_lt.mp hpos).ne'
    obtain ⟨shown, htext, hshows⟩ := Duration.exists_text_ofSeconds hne
    exact ⟨shown, hshows, by rw [RenderError.message_timeout, htext]⟩
  · intro s hconfig
    obtain ⟨before, rest, htext⟩ := CommandLine.exists_statusText s
    rw [hconfig, CommandLine.limitText_of_pos hpos] at htext
    exact ⟨before, rest, htext⟩

/-- A renderer that never ends. -/
def sluggard : System := fun _ _ d =>
  .ok ⟨none, fun _ => d, fun _ => ⟨[], []⟩⟩

/-- A text for a renderer with a limit. -/
def sketchWithin (seconds : UInt64) : Invocation :=
  { sketch with config := { RendererConfig.standard with timeoutSeconds := seconds } }

theorem sluggard_expires (seconds : UInt64) (h : 0 < seconds) :
    (sketchWithin seconds).result? sluggard .empty 5 =
      some (.error (.timeout (.ofSeconds seconds.toNat))) := by
  have hlaunches : (sketchWithin seconds).Launches sluggard .empty 5 _ := ⟨_, by cbv, rfl⟩
  refine Invocation.result?_eq_timeout_iff.mpr ⟨h, ⟨_, hlaunches, ?_⟩, rfl⟩
  intro ending code hending
  cases hending

/-- Surroundings without a configuration. -/
def bareSurroundings : CommandLine.Surroundings :=
  ⟨fun _ => none, .empty, fun _ _ d => (.outlived, d), [], 5⟩

/-- A minute is shown as a minute. -/
theorem sluggard_shows_a_minute :
    (RenderError.timeout (.ofSeconds 60)).message = "Renderer timed out after 60s" ∧
    ∃ before rest, (CommandLine.run bareSurroundings []).output =
      before ++ "\n  Timeout:   " ++ "60s" ++ "\n  Save dir:  " ++ rest := by
  obtain ⟨⟨shown, hshows, hmessage⟩, hstatus⟩ :=
    expired_limit_is_shown (sluggard_expires 60 (by decide))
  have hshown : shown = 60 := hshows.kept (by decide)
  rw [hshown] at hmessage
  exact ⟨hmessage, hstatus bareSurroundings rfl⟩

/-- From the first number on that single precision lacks, an error can show another limit than the
status. -/
theorem sluggard_shows_another_limit :
    (sketchWithin 16777217).result? sluggard .empty 5 =
      some (.error (.timeout (.ofSeconds 16777217))) ∧
    (RenderError.timeout (.ofSeconds 16777217)).message = "Renderer timed out after 16777216s" ∧
    CommandLine.limitText (sketchWithin 16777217).config = "16777217s" := by
  have hseconds : (16777217 : UInt64).toNat = 16777217 := by decide
  have hexpires := sluggard_expires 16777217 (by decide)
  have htext : (Duration.ofSeconds 16777217).text = "16777216" := by decide +kernel
  rw [hseconds] at hexpires
  refine ⟨hexpires, ?_, by decide +kernel⟩
  rw [RenderError.message_timeout, htext]
  decide

end DiagramService
