import DiagramService.Http.Route
import DiagramService.Proofs.Disk.Effect
import DiagramService.Proofs.Render.Invocation

/-! What a renderer makes of a source, as a matter of what is in the source. What a client gets to
see of a run can then be told from the text alone, wherever the files of the run are. -/

namespace DiagramService

/-! ## What a renderer makes of a source -/

/-- How a renderer ends on a source, and the image that it leaves. -/
structure Behaviour where
  outcome : Bytes → RunOutcome
  image : Bytes → Option Bytes

/-- An outcome without what was written to the stream for errors. -/
def RunOutcome.quiet : RunOutcome → RunOutcome
  | .ended code _ => .ended code []
  | outcome => outcome

namespace Behaviour

/-- The renderer ends well on a source. -/
def Succeeds (b : Behaviour) (source : Bytes) : Prop :=
  ∃ errors, b.outcome source = .ended (some 0) errors

/-- The renderer has left its image of a source. -/
def Leaves (b : Behaviour) (source : Bytes) (x? : Option Entry) : Prop :=
  match b.image source with
  | some image => ∃ time, x? = some (.file image time)
  | none => x? = none

/-- What becomes of a source. -/
def result (b : Behaviour) (config : RendererConfig) (source : Bytes) : Except RenderError Bytes :=
  match b.outcome source with
  | .notStarted cause => .error (.spawnFailure config.command cause)
  | .outlived => .error (.timeout (.ofSeconds config.timeoutSeconds.toNat))
  | .lost cause => .error (.io cause)
  | .ended code errors =>
    if code = some 0 then
      match b.image source with
      | some image => .ok image
      | none => .error (.outputMissing ⟨[]⟩)
    else .error (.toolFailure code (complaint errors))

/-- What a client gets to see is what becomes of a source. -/
def Shows (b : Behaviour) (config : RendererConfig) (source : Bytes)
    (result : Except RenderError Bytes) : Prop :=
  Http.Response.ofRender result = .ofRender (b.result config source)

end Behaviour

/-! ## The end of a run -/

namespace Behaviour

variable {b : Behaviour} {i : Invocation} {source : Bytes} {outcome : RunOutcome}

/-- When the renderer has ended the image is read, or the client sees what went wrong. -/
theorem afterRun_shows (houtcome : outcome.quiet = (b.outcome source).quiet) :
    i.afterRun outcome = .read ∧ b.Succeeds source ∨
      ∃ error, i.afterRun outcome = .done (.error error) ∧
        b.Shows i.config source (.error error) := by
  unfold Shows result Succeeds
  -- both have ended in the same way, but for what is on the stream for errors
  cases outcome with
  | notStarted cause =>
    cases hout : b.outcome source <;> rw [hout] at houtcome <;> cases houtcome
    exact .inr ⟨_, rfl, rfl⟩
  | outlived =>
    cases hout : b.outcome source <;> rw [hout] at houtcome <;> cases houtcome
    exact .inr ⟨_, rfl, rfl⟩
  | lost cause =>
    cases hout : b.outcome source <;> rw [hout] at houtcome <;> cases houtcome
    exact .inr ⟨_, rfl, rfl⟩
  | ended code errors =>
    cases hout : b.outcome source <;> rw [hout] at houtcome <;> cases houtcome
    simp only [Invocation.afterRun]
    by_cases hcode : code = some 0
    · subst hcode
      exact .inl ⟨rfl, _, rfl⟩
    · rw [if_neg hcode, if_neg hcode]
      exact .inr ⟨_, rfl, rfl⟩

/-- What is read is what the renderer has left. -/
theorem shows_read {d : Disk} {dir : Path} {S : Place} {name : FileName} (hopens : d.Opens dir S)
    (hn : Disk.Ordinary name) (hs : Disk.Spelled (dir.join name))
    (himage : i.files.image = dir.join name) (hcode : b.Succeeds source)
    (hleaves : b.Leaves source (d.get? (name :: S))) : b.Shows i.config source (i.read d) := by
  obtain ⟨errors, hcode⟩ := hcode
  unfold Leaves at hleaves
  unfold Shows result Invocation.read
  rw [hcode, himage]
  cases hb : b.image source with
  | some image =>
    rw [hb] at hleaves
    obtain ⟨time, hget⟩ := hleaves
    rw [hopens.contentAt_file hn hs hget]
    rfl
  | none =>
    rw [hb] at hleaves
    rw [hopens.contentAt_missing hn hs hleaves]
    rfl

/-- A run whose renderer has behaved shows what becomes of the source. -/
theorem shows_perform {d e : Disk} {now : Int} (hprepare : i.prepare d now = (.run, e))
    {renderer : Renderer}
    (houtcome : (renderer i.files.source e).1.quiet = (b.outcome source).quiet)
    {dir : Path} {S : Place} {name : FileName} (hn : Disk.Ordinary name)
    (hs : Disk.Spelled (dir.join name)) (himage : i.files.image = dir.join name)
    (hopens : (renderer i.files.source e).2.Opens dir S)
    (hleaves : b.Succeeds source →
      b.Leaves source ((renderer i.files.source e).2.get? (name :: S))) :
    b.Shows i.config source (i.perform renderer d now).1 := by
  obtain ⟨-, hresult⟩ := Invocation.perform_of_prepare hprepare renderer
  rcases afterRun_shows (i := i) houtcome with ⟨hread, hcode⟩ | ⟨error, herror, hshows⟩
  · rcases hresult with ⟨-, hresult⟩ | ⟨error, herror, -⟩
    · rw [hresult]
      exact shows_read hopens hn hs himage hcode (hleaves hcode)
    · rw [hread] at herror
      cases herror
  · rcases hresult with ⟨hread, -⟩ | ⟨error', herror', hresult⟩
    · rw [herror] at hread
      cases hread
    · rw [herror] at herror'
      cases herror'
      rw [hresult]
      exact hshows

end Behaviour

/-! ## Renderers that keep to their image path -/

/-- A renderer treats every source in a given way, and changes nothing but its image path. Nothing
is known of it where something has the place of the image already. -/
def Renderer.Depicts (renderer : Renderer) (b : Behaviour) : Prop :=
  ∀ (source : Path) (d : Disk) (text : Bytes) (q : Place), d.contentAt source = .ok text →
    d.locate .keep (renderedImagePath source) = .ok (.missing q) →
    (renderer source d).1.quiet = (b.outcome text).quiet ∧
    Disk.AgreesOff (· = q) d (renderer source d).2 ∧
    (b.Succeeds text → b.Leaves text ((renderer source d).2.get? q))

/-- A run of such a renderer shows what becomes of the source, whatever directory the files are in.
-/
theorem Renderer.Depicts.perform {renderer : Renderer} {b : Behaviour} (h : renderer.Depicts b)
    {i : Invocation} {d e : Disk} {now : Int} (hprepare : i.prepare d now = (.run, e)) {dir : Path}
    {S : Place} {name : FileName} (hn : Disk.Ordinary name) (hs : Disk.Spelled (dir.join name))
    (himage : i.files.image = dir.join name)
    (hrendered : renderedImagePath i.files.source = dir.join name) {text : Bytes}
    (hsource : e.contentAt i.files.source = .ok text) (hget : e.get? (name :: S) = none)
    (hopens : ∀ e', Disk.AgreesOff (· = name :: S) e e' → e'.Opens dir S) :
    b.Shows i.config text (i.perform renderer d now).1 ∧
      Disk.AgreesOff (· = name :: S) e (i.perform renderer d now).2 := by
  have hmissing := (hopens e (.refl _ e)).locate_missing hn hs .keep hget
  rw [← hrendered] at hmissing
  obtain ⟨houtcome, hoff, hleaves⟩ := h _ e text _ hsource hmissing
  rw [(Invocation.perform_of_prepare hprepare renderer).1]
  exact ⟨Behaviour.shows_perform hprepare houtcome hn hs himage (hopens _ hoff) hleaves, hoff⟩

end DiagramService
