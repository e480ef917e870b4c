import DiagramService.Proofs.Render.Printing
import DiagramService.Proofs.Render.Traceless

/-! What is told of a rendering, as a matter of what its renderer makes of a source in a scratch
directory that is new. It can be told before the renderer runs. -/

namespace DiagramService

/-! ## Renderers that go by the source -/

/-- How a renderer ends on a source, and what is read from its image path if it has ended well. -/
structure Verdict where
  outcome : Bytes → RunOutcome
  image : Bytes → Except IoError Bytes

/-- A renderer ends as the content of its source demands if there is no image yet, and changes
nothing but what is inside of the directory of the source. -/
def Renderer.Obeys (renderer : Renderer) (v : Verdict) : Prop :=
  ∀ (dir : Path) (d : Disk) (S : Place) (text : Bytes) (time : Int), d.Opens dir S →
    Disk.Spelled (dir.join scratchSource) → d.get? (scratchSource :: S) = some (.file text time) →
    d.get? (scratchImage :: S) = none →
    (renderer (dir.join scratchSource) d).1.quiet = (v.outcome text).quiet ∧
    Disk.AgreesOff (Inside d dir) d (renderer (dir.join scratchSource) d).2 ∧
    ((∃ errors, v.outcome text = .ended (some 0) errors) →
      (renderer (dir.join scratchSource) d).2.contentAt (dir.join scratchImage) = v.image text)

theorem Renderer.Obeys.staysInside {renderer : Renderer} {v : Verdict} (h : renderer.Obeys v) :
    renderer.StaysInside := by
  intro dir d S text time hopens hs hsource himage
  exact (h dir d S text time hopens hs hsource himage).2.1

/-- What is told of a result: the message is all that is seen of an error. -/
def told (result : Except RenderError Bytes) : Except String Bytes :=
  result.mapError RenderError.message

/-- What is told of an image that may be unreadable. It is not told where the image should be. -/
def toldImage : Except IoError Bytes → Except String Bytes
  | .ok image => .ok image
  | .error cause =>
    .error (if cause.kind = .notFound then RenderError.outputMissing ⟨[]⟩ else .io cause).message

/-- What is told of a run on a source. -/
def Verdict.told (v : Verdict) (config : RendererConfig) (source : Bytes) : Except String Bytes :=
  match v.outcome source with
  | .notStarted cause => .error (RenderError.spawnFailure config.command cause).message
  | .outlived => .error (RenderError.timeout (.ofSeconds config.timeoutSeconds.toNat)).message
  | .lost cause => .error (RenderError.io cause).message
  | .ended code errors =>
    if code = some 0 then toldImage (v.image source)
    else .error (RenderError.toolFailure code (complaint errors)).message

namespace Invocation

variable {i : Invocation} {v : Verdict}

/-- What is told of an image is told of what is read. -/
theorem told_read (i : Invocation) (d : Disk) :
    told (i.read d) = toldImage (d.contentAt i.files.image) := by
  unfold read
  cases d.contentAt i.files.image with
  | ok image => rfl
  | error cause =>
    by_cases hmissing : cause.kind = .notFound
    · simp only [toldImage, hmissing, if_true]
      rfl
    · simp only [toldImage, hmissing, if_false]
      rfl

/-- When the renderer has ended the image is read, or it is told what went wrong. -/
theorem afterRun_told {source : Bytes} {outcome : RunOutcome}
    (houtcome : outcome.quiet = (v.outcome source).quiet) :
    i.afterRun outcome = .read ∧ (∃ errors, v.outcome source = .ended (some 0) errors) ∧
        v.told i.config source = toldImage (v.image source) ∨
      ∃ error : RenderError, i.afterRun outcome = .done (.error error) ∧
        v.told i.config source = .error error.message := by
  unfold Verdict.told
  obtain rfl | ⟨code, errors, errors', rfl, heq⟩ := RunOutcome.of_quiet houtcome
  · cases hout : v.outcome source with
    | ended code errors =>
      by_cases hcode : code = some 0
      · subst hcode
        exact .inl ⟨rfl, ⟨errors, rfl⟩, rfl⟩
      · refine .inr ⟨.toolFailure code (complaint errors), ?_, ?_⟩
        · simp only [afterRun, hcode, if_false]
        · simp only [hcode, if_false]
    | notStarted cause => exact .inr ⟨.spawnFailure i.config.command cause, rfl, rfl⟩
    | outlived => exact .inr ⟨.timeout (.ofSeconds i.config.timeoutSeconds.toNat), rfl, rfl⟩
    | lost cause => exact .inr ⟨.io cause, rfl, rfl⟩
  · -- what was printed is not told
    rw [heq]
    by_cases hcode : code = some 0
    · subst hcode
      exact .inl ⟨rfl, ⟨errors', rfl⟩, rfl⟩
    · refine .inr ⟨.toolFailure code (complaint errors), ?_, ?_⟩
      · simp only [afterRun, hcode, if_false]
      · simp only [hcode, if_false]
        rfl

/-- What is told of an invocation whose renderer goes by the source. -/
theorem told_perform {d e : Disk} {now : Int} (hprepare : i.prepare d now = (.run, e))
    {renderer : Renderer} {source : Bytes}
    (houtcome : (renderer i.files.source e).1.quiet = (v.outcome source).quiet)
    (himage : (∃ errors, v.outcome source = .ended (some 0) errors) →
      (renderer i.files.source e).2.contentAt i.files.image = v.image source) :
    told (i.perform renderer d now).1 = v.told i.config source := by
  obtain ⟨-, hresult⟩ := perform_of_prepare hprepare renderer
  obtain ⟨hread, hended, htold⟩ | ⟨error, herror, htold⟩ := afterRun_told (i := i) houtcome
  · obtain ⟨-, hresult⟩ | ⟨error, herror, -⟩ := hresult
    · rw [hresult, told_read, himage hended, htold]
    · exact nomatch hread.symm.trans herror
  · obtain ⟨hread, -⟩ | ⟨error', herror', hresult⟩ := hresult
    · exact nomatch herror.symm.trans hread
    · cases herror.symm.trans herror'
      rw [hresult, htold]
      rfl

end Invocation

/-! ## Renderings -/

namespace Rendering

variable {r : Rendering} {v : Verdict} {renderer : Renderer} {root : Path} {W : Place}
  {ending : List Char} {d : Disk}

/-- What is told of a rendering that has a scratch directory. -/
def foretold (r : Rendering) (v : Verdict) (scratch : Scratch) : Except String Bytes :=
  if Disk.maxPathBytes ≤ Disk.byteLength scratch.files.source.chars then
    .error (RenderError.io .nameTooLong).message
  else v.told r.config (Utf8.encode r.text)

/-- What is told of a rendering before its renderer runs. -/
def forecast (r : Rendering) (v : Verdict) (d : Disk) (endings : List (List Char)) :
    Except String Bytes :=
  match Scratch.allocate d r.workDir endings with
  | (.error cause, _) => .error (RenderError.io cause).message
  | (.ok scratch, _) => r.foretold v scratch

/-- What is told of a run in a new scratch directory. -/
theorem told_invocation (hfresh : Scratch.Fresh root W ending d) (hobeys : renderer.Obeys v)
    (now : Int) :
    told ((r.invocation (.named root ending)).perform renderer
        (d.set (Scratch.placeOf W ending) .directory) now).1 =
      r.foretold v (.named root ending) := by
  unfold foretold
  by_cases hlong : Disk.maxPathBytes ≤
      Disk.byteLength (Scratch.named root ending).files.source.chars
  · rw [if_pos hlong, perform_long r renderer hfresh hlong]
    rfl
  · rw [if_neg hlong]
    have hfits := hfresh.fits (Nat.not_le.mp hlong)
    obtain ⟨e, hprepare, hoff, hl, ⟨time, hsource⟩, himage⟩ :=
      prepare_fresh (r := r) hfresh.site hfits hfresh.drawn hfresh.missing now
    obtain ⟨houtcome, -, hcontent⟩ := hobeys _ e _ _ time (hl.opens (hfresh.opens hoff))
      (hfits.spelled_source hfresh.drawn) hsource himage
    refine Invocation.told_perform hprepare houtcome fun hended => ?_
    exact (congrArg _ (image_named root ending)).trans (hcontent hended)

/-- What is told of a rendering is what was foretold. -/
theorem told_perform (hd : d.WellFormed) {endings : List (List Char)}
    (hdrawn : ∀ ending ∈ endings, Scratch.Drawn ending) (hobeys : renderer.Obeys v) (now : Int) :
    told (r.perform renderer endings d now).1 = r.forecast v d endings := by
  unfold forecast
  obtain ⟨cause, hallocate, hperform⟩ | ⟨root, W, ending, hfresh, hallocate, hperform⟩ :=
    perform_cases r renderer hd hdrawn now
  · rw [hallocate, hperform]
    rfl
  · rw [hallocate, hperform]
    exact told_invocation hfresh hobeys now

end Rendering

/-! ## Names that are drawn -/

namespace Scratch

/-- It does not matter which of two lists of names is drawn: they are the same, or no name is used,
or each has a name that a directory is made under. An error can tell the name that was tried. -/
inductive SameDraws (d : Disk) (workDir : Path) : List (List Char) → List (List Char) → Prop
  | same (endings) : SameDraws d workDir endings endings
  | unused (cause) (h : (d.makeDirs workDir).1 = .error cause) (endings endings') :
    SameDraws d workDir endings endings'
  | made (endings endings' scratch scratch') (h : (allocate d workDir endings).1 = .ok scratch)
    (h' : (allocate d workDir endings').1 = .ok scratch') : SameDraws d workDir endings endings'

variable {d : Disk} {workDir : Path} {endings endings' : List (List Char)}

/-- The paths of the sources in all scratch directories are of the same length. -/
theorem source_length (root : Path) {ending other : List Char} (h : Drawn ending)
    (h' : Drawn other) :
    Disk.byteLength (named root ending).files.source.chars =
      Disk.byteLength (named root other).files.source.chars := by
  obtain ⟨base, hjoin, -⟩ := Disk.join_eq root
  rw [source_chars root h, source_chars root h', hjoin, hjoin]
  simp only [Disk.byteLength_append base, Disk.byteLength_append (base ++ _), name_bytes h,
    name_bytes h']

/-- A scratch directory has one of the names that are drawn. -/
theorem allocate_named {scratch : Scratch} (hdrawn : ∀ ending ∈ endings, Drawn ending)
    (h : (allocate d workDir endings).1 = .ok scratch) : ∃ ending, Drawn ending ∧
      scratch = .named ((d.makeDirs workDir).2.absolute workDir) ending := by
  unfold allocate at h
  split at h
  · next d₁ hmade =>
    obtain ⟨ending, hmem, rfl, -⟩ := allocateIn_made (Prod.ext h rfl)
    exact ⟨ending, hdrawn _ hmem, by rw [hmade]; rfl⟩
  · cases h

end Scratch

/-- What is foretold does not depend on which names are drawn. -/
theorem Rendering.forecast_sameDraws {r : Rendering} {d : Disk}
    {endings endings' : List (List Char)} (h : Scratch.SameDraws d r.workDir endings endings')
    (hdrawn : ∀ ending ∈ endings, Scratch.Drawn ending)
    (hdrawn' : ∀ ending ∈ endings', Scratch.Drawn ending) (v : Verdict) :
    r.forecast v d endings = r.forecast v d endings' := by
  cases h with
  | same => rfl
  | unused cause h =>
    obtain ⟨d₁, hmade⟩ : ∃ d₁, d.makeDirs r.workDir = (.error cause, d₁) := ⟨_, Prod.ext h rfl⟩
    simp only [forecast, Scratch.allocate, hmade, Disk.fail]
  | made _ _ scratch scratch' h h' =>
    obtain ⟨ending, hending, rfl⟩ := Scratch.allocate_named hdrawn h
    obtain ⟨ending', hending', rfl⟩ := Scratch.allocate_named hdrawn' h'
    have hforecast : ∀ {endings scratch}, (Scratch.allocate d r.workDir endings).1 = .ok scratch →
        r.forecast v d endings = r.foretold v scratch := by
      intro endings scratch h
      have hallocate : Scratch.allocate d r.workDir endings = (.ok scratch, _) := Prod.ext h rfl
      rw [forecast, hallocate]
    rw [hforecast h, hforecast h', foretold, foretold, Scratch.source_length _ hending hending']

end DiagramService
