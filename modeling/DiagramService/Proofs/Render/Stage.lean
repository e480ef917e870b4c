import DiagramService.Proofs.Render.Behaviour
import DiagramService.Proofs.Render.Scratch

/-! How far a rendering is in a work directory that is usable. `Advance` lists its steps with what
they find in the scratch directory and what they leave there. The renderer is known by what it makes
of a source, so that the answer can be told from the text alone. -/

namespace DiagramService

/-! ## Renderers in scratch directories -/

/-- What is strictly inside of a directory. -/
def Inside (d : Disk) (dir : Path) (q : Place) : Prop :=
  ∃ S, d.Opens dir S ∧ S <:+ q ∧ q ≠ S

/-- A renderer treats the sources in scratch directories in a given way, and changes nothing but
what is inside of these. -/
def Renderer.Follows (renderer : Renderer) (b : Behaviour) : Prop :=
  ∀ (dir : Path) (d : Disk) (S : Place) (text : Bytes) (time : Int), d.Opens dir S →
    Disk.Spelled (dir.join scratchSource) → d.get? (scratchSource :: S) = some (.file text time) →
    (renderer (dir.join scratchSource) d).1.quiet = (b.outcome text).quiet ∧
    Disk.AgreesOff (Inside d dir) d (renderer (dir.join scratchSource) d).2 ∧
    (b.Succeeds text →
      b.Leaves text ((renderer (dir.join scratchSource) d).2.get? (scratchImage :: S)))

/-! ## Scratch directories of a work directory -/

namespace Scratch

/-- The scratch directory with an ending. -/
def named (root : Path) (ending : List Char) : Scratch :=
  .atPath (root.join (scratchStart ++ ending))

/-- The place of the scratch directory with an ending. -/
def placeOf (W : Place) (ending : List Char) : Place :=
  (scratchStart ++ ending) :: W

/-- The paths of scratch directories can be looked up. -/
def Fits (root : Path) : Prop :=
  ∀ ending, Drawn ending → Disk.Spelled ((root.join (scratchStart ++ ending)).join scratchSource)

/-- Where the name of a scratch directory is missing, nothing is below it. -/
def Hollow (W : Place) (d : Disk) : Prop :=
  ∀ ending, Drawn ending → d.get? (placeOf W ending) = none →
    ∀ q, placeOf W ending <:+ q → d.get? q = none

/-- Some of the names that are drawn is free. -/
def Free (W : Place) (endings : List (List Char)) (d : Disk) : Prop :=
  (∀ ending ∈ endings, Drawn ending) ∧ ∃ ending ∈ endings, d.get? (placeOf W ending) = none

/-- A scratch directory that was made and is still there. -/
structure Lodges (root : Path) (W : Place) (scratch : Scratch) (ending : List Char) (d : Disk) :
    Prop where
  drawn : Drawn ending
  eq : scratch = named root ending
  get : d.get? (placeOf W ending) = some .directory

section Named

variable {root : Path} {W : Place} {ending ending' : List Char} {d : Disk}

theorem placeOf_ne_nil (W : Place) (ending : List Char) : placeOf W ending ≠ [] :=
  List.cons_ne_nil _ _

/-- No scratch directory is inside of another. -/
theorem placeOf_eq_of_suffix {q : Place} (h : placeOf W ending <:+ q)
    (h' : placeOf W ending' <:+ q) : ending = ending' := by
  have hlen : (placeOf W ending).length = (placeOf W ending').length := by simp [placeOf]
  have hs := List.suffix_of_suffix_length_le h h' (Nat.le_of_eq hlen)
  have heq := hs.eq_of_length hlen
  exact List.append_cancel_left (List.cons.inj heq).1

theorem named_injective (h : named root ending = named root ending') : ending = ending' := by
  obtain ⟨base, hjoin, -⟩ := Disk.join_eq root
  have hdir := congrArg Scratch.dir h
  simp only [named, atPath, hjoin, Path.mk.injEq] at hdir
  exact List.append_cancel_left (List.append_cancel_left hdir)

theorem Fits.of_lt (hz : '\x00' ∉ root.chars)
    (hlt : Disk.byteLength root.chars + 36 < Disk.maxPathBytes) : Fits root := by
  intro ending hdrawn
  obtain ⟨slash, hchars, hzero, hslash⟩ := Disk.join_chars root (scratchStart ++ ending)
  obtain ⟨slash', hchars', hzero', hslash'⟩ :=
    Disk.join_chars (root.join (scratchStart ++ ending)) scratchSource
  have hbytes : Disk.byteLength scratchSource = 12 := by decide
  have hname := name_bytes hdrawn
  refine ⟨Disk.join_ne_nil _ scratchSource_ordinary, ?_, ?_⟩
  · rw [hchars', hchars]
    have hsource : '\x00' ∉ scratchSource := by decide
    have hname : '\x00' ∉ scratchStart ++ ending := fun hc =>
      (plain_name hdrawn _ hc).notZero rfl
    simp only [List.mem_append, not_or] at hname ⊢
    exact ⟨⟨⟨⟨hz, hzero⟩, hname⟩, hzero'⟩, hsource⟩
  · rw [hchars', hchars]
    simp only [Disk.byteLength_append] at hname ⊢
    omega

theorem Fits.spelled_source (hfits : Fits root) (h : Drawn ending) :
    Disk.Spelled ((named root ending).dir.join scratchSource) :=
  hfits ending h

theorem Fits.spelled_image (hfits : Fits root) (h : Drawn ending) :
    Disk.Spelled ((named root ending).dir.join scratchImage) :=
  (hfits ending h).join_of_le scratchImage_ordinary (by decide) (by decide)

theorem Fits.spelled_dir (hfits : Fits root) (h : Drawn ending) :
    Disk.Spelled (root.join (scratchStart ++ ending)) :=
  (hfits ending h).of_join (Disk.join_ne_nil root (ordinary_name h))

theorem Lodges.opens (hopens : d.Opens root W) {scratch : Scratch}
    (h : Lodges root W scratch ending d) : d.Opens scratch.dir (placeOf W ending) := by
  rw [h.eq]
  exact hopens.join (ordinary_name h.drawn) h.get

/-- A change in one scratch directory leaves nothing below a missing one, if that one is still there
or everything in it is gone. -/
theorem Hollow.change {d' : Disk} (h : Hollow W d)
    (hoff : Disk.AgreesOff (placeOf W ending <:+ ·) d d')
    (hroot : d'.get? (placeOf W ending) ≠ none ∨
      ∀ q, placeOf W ending <:+ q → d'.get? q = none) : Hollow W d' := by
  intro ending' hdrawn hget q hq
  by_cases hown : placeOf W ending <:+ q
  · obtain rfl := placeOf_eq_of_suffix hown hq
    rcases hroot with hne | hnone
    · exact absurd hget hne
    · exact hnone q hown
  · rw [hoff.get q hown]
    refine h ending' hdrawn ?_ q hq
    rw [← hoff.get _ fun hs => hown (hs.trans hq), hget]

/-- If one of the names is free a scratch directory is made under such a name. -/
theorem allocateIn_free (hopens : d.Opens root W) (hfits : Fits root)
    {endings : List (List Char)} (hfree : Free W endings d) : ∃ ending, Drawn ending ∧
      d.get? (placeOf W ending) = none ∧
      allocateIn d root endings =
        (.ok (named root ending), d.set (placeOf W ending) .directory) := by
  obtain ⟨hdrawn, hfree⟩ := hfree
  induction endings with
  | nil => simp at hfree
  | cons ending endings ih =>
    have hending := hdrawn ending List.mem_cons_self
    have hmake : d.makeDir (root.join (scratchStart ++ ending)) =
        if d.get? (placeOf W ending) = none then (d.set (placeOf W ending) .directory).done
        else d.fail .exists_ := hopens.makeDir (ordinary_name hending) (hfits.spelled_dir hending)
    by_cases hget : d.get? (placeOf W ending) = none
    · refine ⟨ending, hending, hget, ?_⟩
      rw [if_pos hget] at hmake
      simp only [allocateIn, hmake]
      rfl
    · have hrest : ∃ ending ∈ endings, d.get? (placeOf W ending) = none := by
        obtain ⟨other, hmem, hnone⟩ := hfree
        rcases List.mem_cons.mp hmem with rfl | hmem
        · exact absurd hnone hget
        · exact ⟨other, hmem, hnone⟩
      obtain ⟨other, hother, hnone, heq⟩ := ih (fun e he => hdrawn e (.tail _ he)) hrest
      refine ⟨other, hother, hnone, ?_⟩
      rw [if_neg hget] at hmake
      simp only [allocateIn, hmake, Disk.fail]
      exact heq

end Named

end Scratch

/-! ## Steps of a rendering -/

namespace Rendering

/-- The steps of a rendering in a work directory that is usable. `root` is the path of the directory
and `W` its place. -/
inductive Advance (r : Rendering) (root : Path) (W : Place) (now : Int) :
    Phase → Disk → Phase → Disk → Prop
  | root (d) : Advance r root W now .makeRoot d .allocate d
  | allocate (d ending) (hdrawn : Scratch.Drawn ending)
      (hget : d.get? (Scratch.placeOf W ending) = none) :
    Advance r root W now .allocate d (.invoke (.named root ending) .write)
      (d.set (Scratch.placeOf W ending) .directory)
  | write (d ending) : Advance r root W now (.invoke (.named root ending) .write) d
      (.invoke (.named root ending) .clear)
      (d.set (scratchSource :: Scratch.placeOf W ending) (.file (Utf8.encode r.text) now))
  | clear (d ending) : Advance r root W now (.invoke (.named root ending) .clear) d
      (.invoke (.named root ending) .run) d
  | running (d ending) : Advance r root W now (.invoke (.named root ending) .run) d
      (.invoke (.named root ending) .run) d
  | read (d ending) : Advance r root W now (.invoke (.named root ending) .read) d
      (.close (.named root ending) ((r.invocation (.named root ending)).read d)) d
  | close (d ending result) : Advance r root W now (.close (.named root ending) result) d
      (.done result) (d.eraseTree (Scratch.placeOf W ending))
  | done (d result) : Advance r root W now (.done result) d (.done result) d

/-- What is there of the source and the image before the renderer runs and after that. -/
def Inner (b : Behaviour) (text : Bytes) (S : Place) (d : Disk) : Invocation.Phase → Prop
  | .write => d.get? (scratchSource :: S) = none ∧ d.get? (scratchImage :: S) = none
  | .clear => (∃ time, d.get? (scratchSource :: S) = some (.file text time)) ∧
      d.get? (scratchImage :: S) = none
  | .run => True
  | .read => b.Succeeds text ∧ b.Leaves text (d.get? (scratchImage :: S))
  | .done _ => False

/-- How far a rendering is. -/
def Stage (b : Behaviour) (r : Rendering) (root : Path) (W : Place) (d : Disk) : Phase → Prop
  | .makeRoot => True
  | .allocate => True
  | .invoke scratch phase => ∃ ending, Scratch.Lodges root W scratch ending d ∧
      Inner b (Utf8.encode r.text) (Scratch.placeOf W ending) d phase
  | .close scratch result => (∃ ending, Scratch.Lodges root W scratch ending d) ∧
      b.Shows r.config (Utf8.encode r.text) result
  | .done result => b.Shows r.config (Utf8.encode r.text) result

/-- A place in the scratch directory of a rendering. -/
def Own (root : Path) (W : Place) (phase : Phase) (q : Place) : Prop :=
  ∃ ending, Scratch.Drawn ending ∧ scratch? phase = some (.named root ending) ∧
    Scratch.placeOf W ending <:+ q

/-- The work directory is there, and scratch directories can be made in it. -/
structure Room (workDir root : Path) (W : Place) (d : Disk) : Prop where
  absolute : d.absolute workDir = root
  made : d.makeDirs workDir = (.ok (), d)
  opens : d.Opens root W
  fits : Scratch.Fits root
  hollow : Scratch.Hollow W d

/-- The directory for scratch directories is there, and nothing is below those that are missing. -/
structure Site (root : Path) (W : Place) (d : Disk) : Prop where
  opens : d.Opens root W
  hollow : Scratch.Hollow W d

theorem Room.site {workDir root : Path} {W : Place} {d : Disk} (h : Room workDir root W d) :
    Site root W d :=
  ⟨h.opens, h.hollow⟩

section Step

variable {b : Behaviour} {r : Rendering} {root : Path} {W : Place} {d : Disk} {scratch : Scratch}
  {ending : List Char}

/-- A scratch directory that has just been made is empty. -/
theorem lodges_made (hhollow : Scratch.Hollow W d) (hdrawn : Scratch.Drawn ending)
    (hget : d.get? (Scratch.placeOf W ending) = none) :
    Scratch.Lodges root W (.named root ending) ending
        (d.set (Scratch.placeOf W ending) .directory) ∧
      Inner b (Utf8.encode r.text) (Scratch.placeOf W ending)
        (d.set (Scratch.placeOf W ending) .directory) .write := by
  have hnone : ∀ name, (d.set (Scratch.placeOf W ending) .directory).get?
      (name :: Scratch.placeOf W ending) = none := by
    intro name
    rw [Disk.get?_set_of_ne d (List.cons_ne_self _ _)]
    exact hhollow ending hdrawn hget _ (List.suffix_cons _ _)
  exact ⟨⟨hdrawn, rfl, Disk.get?_set_self d (Scratch.placeOf_ne_nil W ending) _⟩, hnone _, hnone _⟩

/-- After it was written the source is there and the image is not. -/
theorem lodges_written (hl : Scratch.Lodges root W scratch ending d)
    (hinner : Inner b (Utf8.encode r.text) (Scratch.placeOf W ending) d .write) (now : Int) :
    Scratch.Lodges root W scratch ending
        (d.set (scratchSource :: Scratch.placeOf W ending) (.file (Utf8.encode r.text) now)) ∧
      Inner b (Utf8.encode r.text) (Scratch.placeOf W ending)
        (d.set (scratchSource :: Scratch.placeOf W ending) (.file (Utf8.encode r.text) now))
        .clear := by
  refine ⟨⟨hl.drawn, hl.eq, ?_⟩, ⟨now, Disk.get?_set_self d (List.cons_ne_nil _ _) _⟩, ?_⟩
  · rw [Disk.get?_set_of_ne d (List.cons_ne_self _ _).symm]
    exact hl.get
  · rw [Disk.get?_set_of_ne d fun h => absurd (List.cons.inj h).1 (by decide)]
    exact hinner.2

theorem write_lodged (hfits : Scratch.Fits root) (hopens : d.Opens root W)
    (hl : Scratch.Lodges root W scratch ending d)
    (hget : d.get? (scratchSource :: Scratch.placeOf W ending) = none) (now : Int) :
    (r.invocation scratch).write d now = (.clear,
      d.set (scratchSource :: Scratch.placeOf W ending) (.file (Utf8.encode r.text) now)) := by
  have hwrite := (hl.opens hopens).writeFile_new scratchSource_ordinary
    (by rw [hl.eq]; exact hfits.spelled_source hl.drawn) hget (Utf8.encode r.text) now
  rw [hl.eq] at hwrite ⊢
  simp only [Invocation.write, invocation]
  rw [show (Scratch.named root ending).files.source =
    (Scratch.named root ending).dir.join scratchSource from rfl, hwrite]
  rfl

theorem image_named (root : Path) (ending : List Char) :
    (Scratch.named root ending).files.image = (Scratch.named root ending).dir.join scratchImage :=
  renderedImagePath_scratch _

theorem clear_lodged (hfits : Scratch.Fits root) (hopens : d.Opens root W)
    (hl : Scratch.Lodges root W scratch ending d)
    (hget : d.get? (scratchImage :: Scratch.placeOf W ending) = none) :
    (r.invocation scratch).clear d = (.run, d) := by
  have hremove := (hl.opens hopens).removeFile scratchImage_ordinary
    (by rw [hl.eq]; exact hfits.spelled_image hl.drawn)
  rw [hget, hl.eq] at hremove
  rw [hl.eq]
  simp only [Invocation.clear, invocation]
  rw [image_named, hremove]
  rfl

/-- What is read after a renderer that ended well is what the client gets to see. -/
theorem shows_read (hfits : Scratch.Fits root) (hopens : d.Opens root W)
    (hl : Scratch.Lodges root W scratch ending d)
    (hinner : Inner b (Utf8.encode r.text) (Scratch.placeOf W ending) d .read) :
    b.Shows r.config (Utf8.encode r.text) ((r.invocation scratch).read d) := by
  have hs : Disk.Spelled (scratch.dir.join scratchImage) := by
    rw [hl.eq]
    exact hfits.spelled_image hl.drawn
  have himage : (r.invocation scratch).files.image = scratch.dir.join scratchImage := by
    rw [hl.eq]
    exact image_named root ending
  exact Behaviour.shows_read (hl.opens hopens) scratchImage_ordinary hs himage hinner.1 hinner.2

theorem drop_lodged (hs : Disk.Spelled (root.join (scratchStart ++ ending)))
    (hopens : d.Opens root W) (hl : Scratch.Lodges root W scratch ending d) :
    scratch.drop d = d.eraseTree (Scratch.placeOf W ending) := by
  rw [hl.eq, Scratch.drop, show (Scratch.named root ending).dir =
    root.join (scratchStart ++ ending) from rfl,
    hopens.removeTree (Scratch.ordinary_name hl.drawn) hs hl.get]
  rfl

/-- Every step of a rendering in a work directory that is usable is one of those that are listed. -/
theorem Stage.advance {phase : Phase} (h : Stage b r root W d phase)
    (hroom : Room r.workDir root W d) {endings : List (List Char)}
    (hfree : phase = .allocate → Scratch.Free W endings d) (now : Int) :
    r.Advance root W now phase d (r.step phase endings d now).1 (r.step phase endings d now).2 := by
  obtain ⟨habsolute, hmade, hopens, hfits, -⟩ := hroom
  cases phase with
  | makeRoot =>
    simp only [step, hmade]
    exact .root d
  | allocate =>
    obtain ⟨ending, hdrawn, hget, heq⟩ := Scratch.allocateIn_free hopens hfits (hfree rfl)
    simp only [step, habsolute, heq]
    exact .allocate d ending hdrawn hget
  | invoke scratch phase =>
    obtain ⟨ending, hl, hinner⟩ := h
    obtain rfl := hl.eq
    cases phase with
    | write =>
      simp only [step, Invocation.step, write_lodged hfits hopens hl hinner.1 now]
      exact .write d ending
    | clear =>
      simp only [step, Invocation.step, clear_lodged hfits hopens hl hinner.2]
      exact .clear d ending
    | run => exact .running d ending
    | read => exact .read d ending
    | done result => exact hinner.elim
  | close scratch result =>
    obtain ⟨⟨ending, hl⟩, -⟩ := h
    obtain rfl := hl.eq
    simp only [step, drop_lodged (hfits.spelled_dir hl.drawn) hopens hl]
    exact .close d ending result
  | done result => exact .done d result

/-! ## What a step keeps -/

section Keep

variable {phase phase' : Phase} {d' : Disk} {now : Int}

/-- Each stage leads to the next one. -/
theorem Advance.stage (h : r.Advance root W now phase d phase' d')
    (hroom : Room r.workDir root W d) (hstage : Stage b r root W d phase) :
    Stage b r root W d' phase' := by
  cases h with
  | root => exact trivial
  | allocate _ ending hdrawn hget =>
    exact ⟨ending, lodges_made hroom.hollow hdrawn hget⟩
  | write _ ending =>
    obtain ⟨ending', hl, hinner⟩ := hstage
    obtain rfl := Scratch.named_injective hl.eq
    exact ⟨ending, lodges_written hl hinner now⟩
  | clear _ ending =>
    obtain ⟨ending', hl, -⟩ := hstage
    exact ⟨ending', hl, trivial⟩
  | running _ ending => exact hstage
  | read _ ending =>
    obtain ⟨ending', hl, hinner⟩ := hstage
    exact ⟨⟨ending', hl⟩, shows_read hroom.fits hroom.opens hl hinner⟩
  | close _ ending result => exact hstage.2
  | done _ result => exact hstage

/-- Only what is in the scratch directory changes. -/
theorem Advance.agreesOff (h : r.Advance root W now phase d phase' d')
    (hstage : Stage b r root W d phase) :
    Disk.AgreesOff (fun q => Own root W phase q ∨ Own root W phase' q) d d' := by
  cases h with
  | allocate _ ending hdrawn hget =>
    exact Disk.agreesOff_set d (.inr ⟨ending, hdrawn, rfl, List.suffix_refl _⟩) _
  | write _ ending =>
    obtain ⟨ending', hl, -⟩ := hstage
    obtain rfl := Scratch.named_injective hl.eq
    exact Disk.agreesOff_set d (.inl ⟨ending, hl.drawn, rfl, List.suffix_cons _ _⟩) _
  | close _ ending result =>
    obtain ⟨⟨ending', hl⟩, -⟩ := hstage
    obtain rfl := Scratch.named_injective hl.eq
    exact (Disk.agreesOff_eraseTree d (List.cons_ne_nil _ _)).mono fun q hq =>
      .inl ⟨ending, hl.drawn, rfl, hq⟩
  | _ => exact .refl _ d

/-- A scratch directory is made where nothing was. -/
theorem Advance.lodging (h : r.Advance root W now phase d phase' d') :
    scratch? phase' = scratch? phase ∨ scratch? phase' = none ∨ ∃ ending, Scratch.Drawn ending ∧
      scratch? phase' = some (.named root ending) ∧ d.get? (Scratch.placeOf W ending) = none := by
  cases h with
  | allocate _ ending hdrawn hget => exact .inr (.inr ⟨ending, hdrawn, rfl, hget⟩)
  | close => exact .inr (.inl rfl)
  | _ => exact .inl rfl

theorem Advance.hollow (h : r.Advance root W now phase d phase' d')
    (hstage : Stage b r root W d phase) (hhollow : Scratch.Hollow W d) : Scratch.Hollow W d' := by
  cases h with
  | allocate _ ending hdrawn hget =>
    refine hhollow.change (Disk.agreesOff_set d (List.suffix_refl _) _) (.inl ?_)
    rw [Disk.get?_set_self d (Scratch.placeOf_ne_nil W ending)]
    nofun
  | write _ ending =>
    obtain ⟨ending', hl, -⟩ := hstage
    obtain rfl := Scratch.named_injective hl.eq
    refine hhollow.change (Disk.agreesOff_set d (List.suffix_cons _ _) _) (.inl ?_)
    rw [Disk.get?_set_of_ne d (List.cons_ne_self _ _).symm, hl.get]
    nofun
  | close _ ending result =>
    refine hhollow.change (Disk.agreesOff_eraseTree d (List.cons_ne_nil _ _)) (.inr fun q hq => ?_)
    rw [Disk.get?_eraseTree d (Scratch.placeOf_ne_nil W ending), if_pos hq]
  | _ => exact hhollow

/-- The scratch directory of a rendering is there. -/
theorem Stage.lodges (h : Stage b r root W d phase) (hphase : scratch? phase = some scratch) :
    ∃ ending, Scratch.Lodges root W scratch ending d := by
  cases phase with
  | invoke scratch phase =>
    cases hphase
    obtain ⟨ending, hl, -⟩ := h
    exact ⟨ending, hl⟩
  | close scratch result =>
    cases hphase
    exact h.1
  | _ => cases hphase

/-- Nobody has been in the scratch directory of a rendering. -/
theorem lodges_kept (hl : Scratch.Lodges root W scratch ending d)
    (hphase : scratch? phase = some scratch)
    (hsame : ∀ q, Own root W phase q → d'.get? q = d.get? q) :
    Scratch.Lodges root W scratch ending d' ∧ ∀ name,
      d'.get? (name :: Scratch.placeOf W ending) = d.get? (name :: Scratch.placeOf W ending) := by
  have hown : ∀ q, Scratch.placeOf W ending <:+ q → d'.get? q = d.get? q := fun q hq =>
    hsame q ⟨ending, hl.drawn, by rw [hphase, hl.eq], hq⟩
  exact ⟨⟨hl.drawn, hl.eq, (hown _ (List.suffix_refl _)).trans hl.get⟩,
    fun name => hown _ (List.suffix_cons name _)⟩

/-- A rendering stays as far as it is while nobody else is in its scratch directory. -/
theorem Stage.kept (h : Stage b r root W d phase)
    (hsame : ∀ q, Own root W phase q → d'.get? q = d.get? q) : Stage b r root W d' phase := by
  cases phase with
  | makeRoot => exact trivial
  | allocate => exact trivial
  | invoke scratch phase =>
    obtain ⟨ending, hl, hinner⟩ := h
    obtain ⟨hl', hname⟩ := lodges_kept hl rfl hsame
    refine ⟨ending, hl', ?_⟩
    cases phase with
    | run => exact trivial
    | done result => exact hinner.elim
    | _ =>
      simp only [Inner, hname]
      exact hinner
  | close scratch result =>
    obtain ⟨⟨ending, hl⟩, hshows⟩ := h
    exact ⟨⟨ending, (lodges_kept hl rfl hsame).1⟩, hshows⟩
  | done result => exact h

/-- What becomes of a rendering when its renderer has ended. -/
theorem Stage.hear (hl : Scratch.Lodges root W scratch ending d) {outcome : RunOutcome}
    (houtcome : outcome.quiet = (b.outcome (Utf8.encode r.text)).quiet)
    (hleaves : b.Succeeds (Utf8.encode r.text) → b.Leaves (Utf8.encode r.text)
      (d.get? (scratchImage :: Scratch.placeOf W ending))) :
    Stage b r root W d (r.hear (.invoke scratch .run) outcome) := by
  simp only [Rendering.hear, Invocation.hear]
  rcases Behaviour.afterRun_shows (i := r.invocation scratch) houtcome with
    ⟨hread, hcode⟩ | ⟨error, herror, hshows⟩
  · rw [hread]
    exact ⟨ending, hl, hcode, hleaves hcode⟩
  · rw [herror]
    exact ⟨⟨ending, hl⟩, hshows⟩

end Keep

/-! ## A rendering alone -/

/-- The work directory is there whatever is done in a scratch directory that was not. -/
theorem Site.opens_fresh {d' : Disk} (h : Site root W d)
    (hdrawn : Scratch.Drawn ending) (hget : d.get? (Scratch.placeOf W ending) = none)
    (hoff : Disk.AgreesOff (Scratch.placeOf W ending <:+ ·) d d') : d'.Opens root W := by
  refine h.opens.mono hoff.working fun q x hq => ?_
  rw [hoff.get q ?_, hq]
  intro hs
  rw [h.hollow ending hdrawn hget q hs] at hq
  cases hq

/-- Before its renderer runs, a rendering has written its text into a scratch directory of its own,
where no image is. -/
theorem prepare_fresh (hsite : Site root W d) (hfits : Scratch.Fits root)
    (hdrawn : Scratch.Drawn ending) (hget : d.get? (Scratch.placeOf W ending) = none) (now : Int) :
    ∃ e, (r.invocation (.named root ending)).prepare (d.set (Scratch.placeOf W ending) .directory)
        now = (.run, e) ∧
      Disk.AgreesOff (Scratch.placeOf W ending <:+ ·) d e ∧
      Scratch.Lodges root W (.named root ending) ending e ∧
      (∃ time, e.get? (scratchSource :: Scratch.placeOf W ending) =
        some (.file (Utf8.encode r.text) time)) ∧
      e.get? (scratchImage :: Scratch.placeOf W ending) = none := by
  -- what the renderer makes of a source does not matter before it runs
  obtain ⟨hl₁, hinner₁⟩ := lodges_made (r := r) (b := ⟨fun _ => .outlived, some⟩) hsite.hollow
    hdrawn hget
  have hoff₁ : Disk.AgreesOff (Scratch.placeOf W ending <:+ ·) d _ :=
    Disk.agreesOff_set d (List.suffix_refl _) .directory
  generalize d.set (Scratch.placeOf W ending) .directory = d₁ at hl₁ hinner₁ hoff₁ ⊢
  have hwrite := write_lodged (r := r) hfits (hsite.opens_fresh hdrawn hget hoff₁) hl₁
    hinner₁.1 now
  obtain ⟨hl₂, hinner₂⟩ := lodges_written hl₁ hinner₁ now
  have hoff₂ : Disk.AgreesOff (Scratch.placeOf W ending <:+ ·) d _ :=
    hoff₁.trans (Disk.agreesOff_set d₁ (List.suffix_cons scratchSource _)
      (.file (Utf8.encode r.text) now))
  have hclear := clear_lodged (r := r) hfits (hsite.opens_fresh hdrawn hget hoff₂) hl₂
    hinner₂.2
  refine ⟨_, ?_, hoff₂, hl₂, hinner₂.1, hinner₂.2⟩
  simp only [Invocation.prepare, hwrite, Invocation.step, hclear]

/-- A rendering runs the renderer once, in a scratch directory that is the same afterwards but for
what the renderer does in it. -/
theorem perform_fresh {d₁ : Disk} (hmade : d.makeDirs r.workDir = (.ok (), d₁))
    (hroom : Room r.workDir root W d₁) {endings : List (List Char)}
    (hfree : Scratch.Free W endings d₁) (renderer : Renderer) (now : Int) :
    ∃ ending d₂ e, (r.invocation (.named root ending)).prepare d₂ now = (.run, e) ∧
      Disk.AgreesOff (Scratch.placeOf W ending <:+ ·) d₁ e ∧
      Scratch.Lodges root W (.named root ending) ending e ∧
      (∃ time, e.get? (scratchSource :: Scratch.placeOf W ending) =
        some (.file (Utf8.encode r.text) time)) ∧
      e.get? (scratchImage :: Scratch.placeOf W ending) = none ∧
      (∀ e', Disk.AgreesOff (Scratch.placeOf W ending <:+ ·) e e' → e'.Opens root W) ∧
      (r.perform renderer endings d now).1 =
        ((r.invocation (.named root ending)).perform renderer d₂ now).1 := by
  obtain ⟨ending, hdrawn, hget, halloc⟩ :=
    Scratch.allocateIn_free hroom.opens hroom.fits hfree
  obtain ⟨e, hprepare, hoff, hl, hsource, himage⟩ :=
    prepare_fresh (r := r) hroom.site hroom.fits hdrawn hget now
  refine ⟨ending, _, e, hprepare, hoff, hl, hsource, himage, fun e' hoff' =>
    hroom.site.opens_fresh hdrawn hget (hoff.trans hoff'), ?_⟩
  simp only [perform, Scratch.allocate, hmade, hroom.absolute, halloc]

/-- A rendering that nothing disturbs shows what the renderer makes of its text. -/
theorem perform_shows {d₁ : Disk} (hmade : d.makeDirs r.workDir = (.ok (), d₁))
    (hroom : Room r.workDir root W d₁) {endings : List (List Char)}
    (hfree : Scratch.Free W endings d₁) {renderer : Renderer} (hfollows : renderer.Follows b)
    (now : Int) :
    b.Shows r.config (Utf8.encode r.text) (r.perform renderer endings d now).1 := by
  obtain ⟨ending, d₂, e, hprepare, -, hl, ⟨time, hsource⟩, -, hopens, hperform⟩ :=
    perform_fresh hmade hroom hfree renderer now
  have hopensS := hl.opens (hopens e (.refl _ e))
  obtain ⟨houtcome, hinside, hleaves⟩ := hfollows _ e _ _ time hopensS
    (hroom.fits.spelled_source hl.drawn) hsource
  -- the renderer leaves the work directory and the scratch directory there
  have hoff : Disk.AgreesOff (Scratch.placeOf W ending <:+ ·) e
      (renderer ((Scratch.named root ending).dir.join scratchSource) e).2 := by
    refine hinside.mono ?_
    rintro q ⟨S, hS, hq, -⟩
    rwa [hopensS.unique hS]
  have hl' : Scratch.Lodges root W (.named root ending) ending
      (renderer ((Scratch.named root ending).dir.join scratchSource) e).2 := by
    refine ⟨hl.drawn, rfl, ?_⟩
    rw [hinside.get _ ?_, hl.get]
    rintro ⟨S, hS, -, hne⟩
    exact hne (hopensS.unique hS)
  rw [hperform]
  exact Behaviour.shows_perform hprepare houtcome scratchImage_ordinary
    (hroom.fits.spelled_image hl.drawn) (image_named root ending) (hl'.opens (hopens _ hoff))
    hleaves

end Step

end Rendering

end DiagramService
