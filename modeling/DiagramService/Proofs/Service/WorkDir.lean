import DiagramService.Proofs.Render.Stage
import DiagramService.Proofs.Service.Ledger

/-! Renderings beside each other in one work directory. Each has a scratch directory of its own and
only ever works in it, and saves only change the two files of a record, so a rendering finds what it
left. -/

namespace DiagramService

/-! ## The work directory -/

/-- The places that saves and renderings may change. The save directory may be in the work
directory, but then it is not in a scratch directory. -/
def Touched (D W : Place) (q : Place) : Prop :=
  (∃ id, PlaceOf D id q) ∨ ∃ ending, Scratch.Drawn ending ∧ ¬ Scratch.placeOf W ending <:+ D ∧
    Scratch.placeOf W ending <:+ q

/-- Both directories are there, and stay there whatever becomes of records and scratch directories.
-/
structure Ready (config : Config) (root : Path) (D W : Place) (d : Disk) : Prop where
  absolute : d.absolute config.workDir = root
  saved : d.get? D = some .directory
  hollow : Scratch.Hollow W d
  kept : ∀ e, Disk.AgreesOff (Touched D W) d e →
    e.makeDirs config.workDir = (.ok (), e) ∧ e.Opens root W ∧ e.Opens config.saveDir D

/-- The work directory can be made, whatever becomes of records, and is ready then. The paths of
scratch directories are not too long. -/
structure Usable (config : Config) (root : Path) (D W : Place) (d : Disk) : Prop where
  fits : Scratch.Fits root
  made : ∀ e, Disk.AgreesOff (fun q => ∃ id, PlaceOf D id q) d e → e.Opens config.saveDir D ∧
    ∃ e', e.makeDirs config.workDir = (.ok (), e') ∧ Ready config root D W e'

section Ready

variable {config : Config} {root : Path} {D W : Place} {d₀ d d' : Disk} {b : Behaviour}

theorem absolute_eq (h : d'.working = d.working) (p : Path) : d'.absolute p = d.absolute p := by
  simp only [Disk.absolute, h]

/-- No file of a record is in a scratch directory. -/
theorem placeOf_not_below {id : DiagramId} {q : Place} (hq : PlaceOf D id q) {ending : List Char}
    (hD : ¬ Scratch.placeOf W ending <:+ D) : ¬ Scratch.placeOf W ending <:+ q := by
  intro hs
  have hname : ∀ name : FileName, (∀ ending, scratchStart ++ ending ≠ name) →
      ¬ Scratch.placeOf W ending <:+ name :: D := by
    intro name hne hs
    rcases List.suffix_cons_iff.mp hs with heq | hbelow
    · exact hne ending (List.cons.inj heq).1
    · exact hD hbelow
  rcases hq with rfl | rfl
  · exact hname _ (fun _ => Scratch.name_ne_sourceName _ id) hs
  · exact hname _ (fun _ => Scratch.name_ne_imageName _ id) hs

/-- What becomes of records does not get at scratch directories. -/
theorem get?_below (hoff : Disk.AgreesOff (fun q => ∃ id, PlaceOf D id q) d d')
    {ending : List Char} (hD : ¬ Scratch.placeOf W ending <:+ D) {q : Place}
    (hq : Scratch.placeOf W ending <:+ q) : d'.get? q = d.get? q :=
  hoff.get q fun ⟨_, hid⟩ => placeOf_not_below hid hD hq

theorem Ready.step (h : Ready config root D W d) (hoff : Disk.AgreesOff (Touched D W) d d')
    (hhollow : Scratch.Hollow W d') : Ready config root D W d' := by
  refine ⟨(absolute_eq hoff.working _).trans h.absolute, (hoff.get D ?_).trans h.saved, hhollow,
    fun e he => h.kept e (hoff.trans he)⟩
  rintro (⟨id, heq | heq⟩ | ⟨ending, -, hD, hs⟩)
  · exact absurd heq (List.cons_ne_self _ _).symm
  · exact absurd heq (List.cons_ne_self _ _).symm
  · exact hD hs

theorem Ready.room (h : Ready config root D W d) (hfits : Scratch.Fits root) :
    Rendering.Room config.workDir root W d :=
  ⟨h.absolute, (h.kept d (.refl _ d)).1, (h.kept d (.refl _ d)).2.1, hfits, h.hollow⟩

/-- The save directory is not where a scratch directory can be made. -/
theorem Ready.not_below (h : Ready config root D W d) {ending : List Char}
    (hdrawn : Scratch.Drawn ending) (hget : d.get? (Scratch.placeOf W ending) = none) :
    ¬ Scratch.placeOf W ending <:+ D := by
  intro hs
  have hnone := h.hollow ending hdrawn hget D hs
  rw [h.saved] at hnone
  cases hnone

theorem Ready.records (h : Ready config root D W d)
    (hoff : Disk.AgreesOff (fun q => ∃ id, PlaceOf D id q) d d') : Ready config root D W d' := by
  refine h.step (hoff.mono fun q hq => .inl hq) fun ending hdrawn hget q hq => ?_
  have hname : ¬ ∃ id, PlaceOf D id (Scratch.placeOf W ending) := by
    rintro ⟨id, heq | heq⟩
    · exact Scratch.name_ne_sourceName ending id (List.cons.inj heq).1
    · exact Scratch.name_ne_imageName ending id (List.cons.inj heq).1
  rw [hoff.get _ hname] at hget
  rw [get?_below hoff (h.not_below hdrawn hget) hq]
  exact h.hollow ending hdrawn hget q hq

/-- What saves and renderings have left of the disk. -/
def InUse (config : Config) (root : Path) (D W : Place) (d₀ d : Disk) : Prop :=
  Disk.AgreesOff (fun q => ∃ id, PlaceOf D id q) d₀ d ∨ Ready config root D W d

theorem InUse.opens (hd : InUse config root D W d₀ d) (h : Usable config root D W d₀) :
    d.Opens config.saveDir D := by
  rcases hd with hoff | hready
  · exact (h.made d hoff).1
  · exact (hready.kept d (.refl _ d)).2.2

theorem InUse.made (hd : InUse config root D W d₀ d) (h : Usable config root D W d₀) :
    ∃ d', d.makeDirs config.workDir = (.ok (), d') ∧ Ready config root D W d' := by
  rcases hd with hoff | hready
  · exact (h.made d hoff).2
  · exact ⟨d, (hready.kept d (.refl _ d)).1, hready⟩

theorem InUse.records (hd : InUse config root D W d₀ d)
    (hoff : Disk.AgreesOff (fun q => ∃ id, PlaceOf D id q) d d') : InUse config root D W d₀ d' := by
  rcases hd with hd | hready
  · exact .inl (hd.trans hoff)
  · exact .inr (hready.records hoff)

end Ready

/-! ## One rendering -/

/-- The requests of one service on a work directory. Some name that is drawn for a scratch directory
is always free. The renderer of a save changes nothing but the image path that belongs to its
source. That of a rendering changes only what is inside of the directory of its source; how it ends,
and the image that it leaves when it ends well, depend on nothing but the content of the source. -/
def Rules.isolated (config : Config) (b : Behaviour) (W : Place) : Rules where
  admits w task number := task.Fresh ∧ number < w.stores.length ∧
    ∀ r phase, task = .render r phase → r.config = config.renderer ∧ r.workDir = config.workDir
  reopens _ _ := False
  clock _ := True
  draws task endings d := ∀ r, task = .render r .allocate → Scratch.Free W endings d
  acts task d e :=
    (∀ s phase source, task = .save s phase → Save.waiting? phase = some source →
      Disk.AgreesOff (d.At (renderedImagePath source)) d e) ∧
    ∀ r scratch phase, task = .render r (.invoke scratch phase) →
      Disk.AgreesOff (Inside d scratch.dir) d e
  ends task given d outcome := ∀ r scratch phase, task = .render r (.invoke scratch phase) →
    ∀ S text, d.Opens scratch.dir S → given = some text →
      outcome.quiet = (b.outcome text).quiet ∧
      (b.Succeeds text → b.Leaves text (d.get? (scratchImage :: S)))

/-- What is known of a rendering and its renderer before that has ended. -/
def Given (r : Rendering) (root : Path) (W : Place) (work : Work) (d : Disk) :
    Rendering.Phase → Prop
  | .makeRoot => work = .idle
  | .allocate => work = .idle
  | .invoke _ .write => work = .idle
  | .invoke _ .clear => work = .idle
  | .invoke scratch .run =>
    match work with
    | .idle => ∃ ending time, Scratch.Lodges root W scratch ending d ∧
        d.get? (scratchSource :: Scratch.placeOf W ending) = some (.file (Utf8.encode r.text) time)
    | .running given => given = some (Utf8.encode r.text)
    | .over _ => True
  | _ => True

/-- A rendering with the settings of the service, as far as it is. -/
structure Staged (config : Config) (b : Behaviour) (root : Path) (D W : Place) (r : Rendering)
    (phase : Rendering.Phase) (work : Work) (d : Disk) : Prop where
  renderer : r.config = config.renderer
  workDir : r.workDir = config.workDir
  ready : phase ≠ .makeRoot → Ready config root D W d
  apart : ∀ ending, Rendering.scratch? phase = some (.named root ending) →
    ¬ Scratch.placeOf W ending <:+ D
  stage : Rendering.Stage b r root W d phase
  given : Given r root W work d phase

/-- What a step of a rendering does to the rest. -/
structure Effect (config : Config) (root : Path) (D W : Place) (phase phase' : Rendering.Phase)
    (d d' : Disk) : Prop where
  ready : Ready config root D W d'
  own : Ready config root D W d → Disk.AgreesOff
    (fun q => Rendering.Own root W phase q ∨ Rendering.Own root W phase' q) d d'
  get : ∀ q, (∀ ending, ¬ Scratch.placeOf W ending <:+ D → ¬ Scratch.placeOf W ending <:+ q) →
    d'.get? q = d.get? q ∨ d.get? q = none ∧ d'.get? q = some .directory
  apart : ∀ ending, Rendering.scratch? phase' = some (.named root ending) →
    ¬ Scratch.placeOf W ending <:+ D
  lodging : Rendering.scratch? phase' = Rendering.scratch? phase ∨
    Rendering.scratch? phase' = none ∨ ∃ ending, Scratch.Drawn ending ∧
      Rendering.scratch? phase' = some (.named root ending) ∧
      d.get? (Scratch.placeOf W ending) = none

section Render

variable {config : Config} {b : Behaviour} {root : Path} {D W : Place} {d₀ d d' : Disk}
  {r : Rendering} {phase phase' : Rendering.Phase} {work : Work} {number : Nat}
  {store store' : Store} {e' : Errand}

/-- What is done in the scratch directory alone. -/
theorem Effect.of_own (hd : Ready config root D W d) (hollow : Scratch.Hollow W d')
    (hapart : ∀ ending, Rendering.scratch? phase = some (.named root ending) →
      ¬ Scratch.placeOf W ending <:+ D)
    (hoff : Disk.AgreesOff (fun q => Rendering.Own root W phase q ∨ Rendering.Own root W phase' q)
      d d')
    (hlodging : Rendering.scratch? phase' = Rendering.scratch? phase ∨
      Rendering.scratch? phase' = none ∨ ∃ ending, Scratch.Drawn ending ∧
        Rendering.scratch? phase' = some (.named root ending) ∧
        d.get? (Scratch.placeOf W ending) = none) : Effect config root D W phase phase' d d' := by
  have hapart' : ∀ ending, Rendering.scratch? phase' = some (.named root ending) →
      ¬ Scratch.placeOf W ending <:+ D := by
    intro ending hphase
    rcases hlodging with heq | heq | ⟨ending', hdrawn, heq, hget⟩ <;> rw [heq] at hphase
    · exact hapart ending hphase
    · cases hphase
    · obtain rfl := Scratch.named_injective (Option.some.inj hphase)
      exact hd.not_below hdrawn hget
  refine ⟨hd.step (hoff.mono ?_) hollow, fun _ => hoff, fun q hq => .inl (hoff.get q ?_), hapart',
    hlodging⟩
  · rintro q (⟨ending, hdrawn, hphase, hs⟩ | ⟨ending, hdrawn, hphase, hs⟩)
    · exact .inr ⟨ending, hdrawn, hapart ending hphase, hs⟩
    · exact .inr ⟨ending, hdrawn, hapart' ending hphase, hs⟩
  · rintro (⟨ending, -, hphase, hs⟩ | ⟨ending, -, hphase, hs⟩)
    · exact hq ending (hapart ending hphase) hs
    · exact hq ending (hapart' ending hphase) hs

theorem Effect.refl (hd : Ready config root D W d)
    (hapart : ∀ ending, Rendering.scratch? phase = some (.named root ending) →
      ¬ Scratch.placeOf W ending <:+ D)
    (h : Rendering.scratch? phase' = Rendering.scratch? phase ∨ Rendering.scratch? phase' = none) :
    Effect config root D W phase phase' d d :=
  .of_own hd hd.hollow hapart (.refl _ d) (h.imp_right .inl)

/-- The work directory is made, or is there already. -/
theorem Staged.makeRoot (h : Staged config b root D W r .makeRoot work d)
    (hu : Usable config root D W d₀) (hd : InUse config root D W d₀ d)
    (endings : List (List Char)) (now : Int) :
    (r.step .makeRoot endings d now).1 = .allocate ∧
      Effect config root D W .makeRoot .allocate d (r.step .makeRoot endings d now).2 := by
  obtain ⟨d', hmade, hready⟩ := hd.made hu
  have hgrows := Disk.makeDirs_grows d config.workDir
  rw [hmade] at hgrows
  have hstep : r.step .makeRoot endings d now = (.allocate, d') := by
    simp only [Rendering.step, h.workDir, hmade]
  rw [hstep]
  refine ⟨rfl, hready, fun hd => ?_, fun q _ => hgrows.get q, (fun _ h => by cases h),
    .inl rfl⟩
  have hsame := (hd.kept d (.refl _ d)).1
  rw [hmade] at hsame
  cases hsame
  exact .refl _ _

/-- A step that the rendering takes itself. -/
theorem Staged.advance (h : Staged config b root D W r phase work d)
    (hu : Usable config root D W d₀) (hroot : phase ≠ .makeRoot) {endings : List (List Char)}
    (hfree : phase = .allocate → Scratch.Free W endings d) (now : Int)
    (hwait : Rendering.waiting? phase = none) :
    Staged config b root D W r (r.step phase endings d now).1 work (r.step phase endings d now).2 ∧
      Effect config root D W phase (r.step phase endings d now).1 d
        (r.step phase endings d now).2 := by
  have hd := h.ready hroot
  have hroom : Rendering.Room r.workDir root W d := by
    rw [h.workDir]
    exact hd.room hu.fits
  have hadv := h.stage.advance hroom hfree now
  have hstage := hadv.stage hroom h.stage
  have heffect : Effect config root D W phase (r.step phase endings d now).1 d
      (r.step phase endings d now).2 :=
    .of_own hd (hadv.hollow h.stage hd.hollow) h.apart (hadv.agreesOff h.stage) hadv.lodging
  refine ⟨⟨h.renderer, h.workDir, fun _ => heffect.ready, heffect.apart, hstage, ?_⟩, heffect⟩
  clear heffect
  have hgiven := h.given
  generalize (r.step phase endings d now).1 = phase' at hadv hstage ⊢
  generalize (r.step phase endings d now).2 = d' at hadv hstage ⊢
  cases hadv with
  | root => exact hgiven
  | allocate => exact hgiven
  | write => exact hgiven
  | clear _ ending =>
    obtain ⟨ending', hl, ⟨time, hget⟩, -⟩ := h.stage
    obtain rfl : work = .idle := hgiven
    exact ⟨ending', time, hl, hget⟩
  | running => cases hwait
  | _ => exact trivial

theorem eq_invoke_of_waiting? {source : Path} (h : Rendering.waiting? phase = some source) :
    ∃ scratch, phase = .invoke scratch .run ∧ source = scratch.files.source := by
  cases phase with
  | invoke scratch phase =>
    cases phase with
    | run => exact ⟨scratch, rfl, (Option.some.inj h).symm⟩
    | _ => cases h
  | _ => cases h

/-- After its renderer a rendering reads the image, or it has failed. -/
theorem hear_run (r : Rendering) (scratch : Scratch) (outcome : RunOutcome) :
    r.hear (.invoke scratch .run) outcome = .invoke scratch .read ∨
      ∃ error, r.hear (.invoke scratch .run) outcome = .close scratch (.error error) := by
  simp only [Rendering.hear, Invocation.hear]
  rcases (r.invocation scratch).afterRun_cases outcome with h | ⟨error, h⟩ <;> rw [h]
  · exact .inl rfl
  · exact .inr ⟨error, rfl⟩

/-- What a renderer does in the scratch directory that it was run in. -/
theorem Staged.act {scratch : Scratch} {given : Option Bytes}
    (h : Staged config b root D W r (.invoke scratch .run) (.running given) d)
    (hoff : Disk.AgreesOff (Inside d scratch.dir) d d') :
    Staged config b root D W r (.invoke scratch .run) (.running given) d' ∧
      Effect config root D W (.invoke scratch .run) (.invoke scratch .run) d d' := by
  have hd := h.ready nofun
  obtain ⟨ending, hl, -⟩ := h.stage
  have hopens := hl.opens (hd.kept d (.refl _ d)).2.1
  have hbelow : Disk.AgreesOff (Scratch.placeOf W ending <:+ ·) d d' := by
    refine hoff.mono ?_
    rintro q ⟨S, hS, hq, -⟩
    rwa [hopens.unique hS]
  have hget : d'.get? (Scratch.placeOf W ending) = some .directory := by
    rw [hoff.get _ ?_, hl.get]
    rintro ⟨S, hS, -, hne⟩
    exact hne (hopens.unique hS)
  have heffect : Effect config root D W (.invoke scratch .run) (.invoke scratch .run) d d' :=
    .of_own hd (hd.hollow.change hbelow (.inl (by rw [hget]; nofun))) h.apart
      (hbelow.mono fun q hq => .inl ⟨ending, hl.drawn, congrArg some hl.eq, hq⟩) (.inl rfl)
  exact ⟨⟨h.renderer, h.workDir, fun _ => heffect.ready, h.apart,
    ⟨ending, ⟨hl.drawn, hl.eq, hget⟩, trivial⟩, h.given⟩, heffect⟩

/-- What is done outside of its scratch directory does not matter to a rendering. -/
theorem Staged.kept (h : Staged config b root D W r phase work d)
    (hready : Ready config root D W d → Ready config root D W d')
    (hsame : ∀ q, Rendering.Own root W phase q → d'.get? q = d.get? q) :
    Staged config b root D W r phase work d' := by
  refine ⟨h.renderer, h.workDir, fun hroot => hready (h.ready hroot), h.apart,
    h.stage.kept hsame, ?_⟩
  have hgiven := h.given
  unfold Given at hgiven ⊢
  split
  · exact hgiven
  · exact hgiven
  · exact hgiven
  · exact hgiven
  · next scratch =>
    cases work with
    | idle =>
      obtain ⟨ending, time, hl, hget⟩ := hgiven
      obtain ⟨hl', hname⟩ := Rendering.lodges_kept hl rfl hsame
      exact ⟨ending, time, hl', (hname _).trans hget⟩
    | _ => exact hgiven
  · exact trivial

/-- A step of a rendering or of its renderer. -/
theorem Staged.own (h : Staged config b root D W r phase work d) (hu : Usable config root D W d₀)
    (hd : InUse config root D W d₀ d)
    (hstep : Errand.Step (.isolated config b W) ⟨.render r phase, number, work⟩ store d
      e' store' d') :
    ∃ phase', e'.task = .render r phase' ∧ Staged config b root D W r phase' e'.work d' ∧
      Effect config root D W phase phase' d d' := by
  cases hstep with
  | advance _ _ _ _ _ endings now hwait _ hdraw =>
    by_cases hroot : phase = .makeRoot
    · subst hroot
      obtain ⟨hphase, heffect⟩ := h.makeRoot hu hd endings now
      exact ⟨.allocate, congrArg (Task.render r) hphase,
        ⟨h.renderer, h.workDir, fun _ => heffect.ready, heffect.apart, trivial, h.given⟩, heffect⟩
    · have hfree : phase = .allocate → Scratch.Free W endings d := by
        rintro rfl
        exact hdraw r rfl
      obtain ⟨hstaged, heffect⟩ := h.advance hu hroot hfree now hwait
      exact ⟨_, rfl, hstaged, heffect⟩
  | begin _ _ _ _ source hwait =>
    obtain ⟨scratch, rfl, rfl⟩ := eq_invoke_of_waiting? hwait
    have hd' := h.ready nofun
    obtain ⟨ending, time, hl, hget⟩ := h.given
    refine ⟨_, rfl, ⟨h.renderer, h.workDir, h.ready, h.apart, h.stage, ?_⟩,
      .refl hd' h.apart (.inl rfl)⟩
    have hcontent : d.contentAt scratch.files.source = .ok (Utf8.encode r.text) := by
      have hread := (hl.opens (hd'.kept d (.refl _ d)).2.1).contentAt_file scratchSource_ordinary
        (by rw [hl.eq]; exact hu.fits.spelled_source hl.drawn) hget
      rw [hl.eq] at hread ⊢
      exact hread
    exact congrArg Except.toOption hcontent
  | act _ _ given _ _ source _ hwait hact =>
    obtain ⟨scratch, rfl, rfl⟩ := eq_invoke_of_waiting? hwait
    obtain ⟨hstaged, heffect⟩ := h.act (hact.2 r scratch .run rfl)
    exact ⟨_, rfl, hstaged, heffect⟩
  | finish _ _ given _ _ source outcome hwait hend =>
    obtain ⟨scratch, rfl, rfl⟩ := eq_invoke_of_waiting? hwait
    have hd' := h.ready nofun
    obtain ⟨ending, hl, -⟩ := h.stage
    have hopens := hl.opens (hd'.kept d (.refl _ d)).2.1
    obtain ⟨houtcome, hleaves⟩ := hend r scratch .run rfl _ _ hopens h.given
    have hstage := Rendering.Stage.hear hl houtcome hleaves
    have hscratch : Rendering.scratch? (r.hear (.invoke scratch .run) outcome) = some scratch := by
      rcases hear_run r scratch outcome with heq | ⟨error, heq⟩ <;> rw [heq] <;> rfl
    refine ⟨_, rfl, ⟨h.renderer, h.workDir, fun _ => hd', fun ending hphase => ?_, hstage, ?_⟩,
      .refl hd' h.apart (.inl hscratch)⟩
    · exact h.apart ending (hscratch.symm.trans hphase)
    · rcases hear_run r scratch outcome with heq | ⟨error, heq⟩ <;> rw [heq] <;> exact trivial

end Render

end DiagramService
