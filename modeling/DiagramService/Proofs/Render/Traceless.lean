import Mathlib
import DiagramService.Proofs.Disk.Paved
import DiagramService.Proofs.Render.Stage

/-! What is left of a rendering. Its renderer works in a scratch directory that is new, and the
directory is removed whatever came of the run, with all that was made in it. So the disk is the same
afterwards, but for the directories on the way to the work directory, which are made if they were
missing. -/

namespace DiagramService

/-- A renderer changes nothing but what is inside of the directory of its source, if no image is
there yet. It may leave anything there, such as directories and links. -/
def Renderer.StaysInside (renderer : Renderer) : Prop :=
  ∀ (dir : Path) (d : Disk) (S : Place) (text : Bytes) (time : Int), d.Opens dir S →
    Disk.Spelled (dir.join scratchSource) → d.get? (scratchSource :: S) = some (.file text time) →
    d.get? (scratchImage :: S) = none →
    Disk.AgreesOff (Inside d dir) d (renderer (dir.join scratchSource) d).2

/-! ## Scratch directories that are new -/

namespace Scratch

/-- A directory where a scratch directory can be made under a name that is free. -/
structure Fresh (root : Path) (W : Place) (ending : List Char) (d : Disk) : Prop where
  site : Rendering.Site root W d
  drawn : Drawn ending
  spelled : Disk.Spelled (root.join (scratchStart ++ ending))
  missing : d.get? (placeOf W ending) = none

section Fresh

variable {root : Path} {W : Place} {ending : List Char} {d e : Disk}

/-- On a well-formed disk a scratch directory is made where nothing is, nor anything below. -/
theorem fresh_of_makeDir (hd : d.WellFormed) (h : Drawn ending)
    (hmake : d.makeDir (root.join (scratchStart ++ ending)) = (.ok (), e)) :
    ∃ W, Fresh root W ending d ∧ e = d.set (placeOf W ending) .directory := by
  obtain ⟨W, hopens, hl, rfl⟩ := Disk.makeDir_join_ok (ordinary_name h) hmake
  exact ⟨W, ⟨⟨hopens, fun _ _ hget _ => hd.get_below hget⟩, h, Disk.spelled_of_locate hl,
    (Disk.locate_missing_get hl).1⟩, rfl⟩

theorem Fresh.opens (h : Fresh root W ending d)
    (hoff : Disk.AgreesOff (placeOf W ending <:+ ·) d e) : e.Opens root W :=
  h.site.opens_fresh h.drawn h.missing hoff

theorem source_chars (root : Path) (h : Drawn ending) : (named root ending).files.source.chars =
    (root.join (scratchStart ++ ending)).chars ++ '/' :: scratchSource :=
  congrArg Path.chars (Disk.join_join root (ordinary_name h) scratchSource)

theorem Fresh.source_noZero (h : Fresh root W ending d) :
    '\x00' ∉ (named root ending).files.source.chars := by
  rw [source_chars root h.drawn]
  simp only [List.mem_append, not_or]
  exact ⟨h.spelled.noZero, by decide⟩

/-- If one scratch directory can be looked into then all of them can. -/
theorem Fresh.fits (h : Fresh root W ending d)
    (hlt : Disk.byteLength (named root ending).files.source.chars < Disk.maxPathBytes) :
    Fits root := by
  intro other hother
  have hs : Disk.Spelled ((root.join (scratchStart ++ ending)).join scratchSource) :=
    ⟨Disk.join_ne_nil _ scratchSource_ordinary, h.source_noZero, hlt⟩
  refine hs.rename (ordinary_name h.drawn) (ordinary_name hother) ?_ ?_
  · exact fun hc => (plain_name hother _ hc).notZero rfl
  · exact Nat.le_of_eq ((name_bytes hother).trans (name_bytes h.drawn).symm)

/-- All that was done in a new scratch directory is undone in the end. -/
theorem Fresh.drop_same (h : Fresh root W ending d)
    (hoff : Disk.AgreesOff (placeOf W ending <:+ ·) d e)
    (hdir : e.get? (placeOf W ending) = some .directory) :
    Disk.Same d ((named root ending).drop e) := by
  rw [Rendering.drop_lodged h.spelled (h.opens hoff) ⟨h.drawn, rfl, hdir⟩]
  exact .of_eraseTree (placeOf_ne_nil W ending) hoff (h.site.hollow ending h.drawn h.missing)

end Fresh

end Scratch

/-! ## Renderings -/

namespace Rendering

variable {r : Rendering} {renderer : Renderer} {root : Path} {W : Place} {ending : List Char}
  {d : Disk}

/-- A source whose path is too long is not written, and nothing is done. -/
theorem perform_long (r : Rendering) (renderer : Renderer) (hfresh : Scratch.Fresh root W ending d)
    (hlong : Disk.maxPathBytes ≤ Disk.byteLength (Scratch.named root ending).files.source.chars)
    (e : Disk) (now : Int) :
    (r.invocation (.named root ending)).perform renderer e now =
      (.error (.io .nameTooLong), e) := by
  have hjoin : (Scratch.named root ending).files.source =
      (root.join (scratchStart ++ ending)).join scratchSource := rfl
  have hzero := hfresh.source_noZero
  have hne := Disk.join_ne_nil (root.join (scratchStart ++ ending)) scratchSource_ordinary
  have hend := Disk.asksDirectory_join (root.join (scratchStart ++ ending)) scratchSource_ordinary
  rw [← hjoin] at hne hend
  have hlocate : e.locate .follow (Scratch.named root ending).files.source =
      .error .nameTooLong := by
    simp [Disk.locate, hzero, hne, hlong]
  have hwrite : e.writeFile (Scratch.named root ending).files.source (Utf8.encode r.text) now =
      e.fail .nameTooLong := by
    simp [Disk.writeFile, Disk.modify, hlocate, hend]
  simp [Invocation.perform, Invocation.prepare, Invocation.write, invocation, hwrite, Disk.fail,
    Invocation.failed, Invocation.step, Invocation.run]

/-- Whatever comes of a run in a new scratch directory, nothing is left of it. -/
theorem invocation_same (hfresh : Scratch.Fresh root W ending d)
    (hinside : renderer.StaysInside) (now : Int) :
    Disk.Same d ((Scratch.named root ending).drop ((r.invocation (.named root ending)).perform
      renderer (d.set (Scratch.placeOf W ending) .directory) now).2) := by
  by_cases hlong : Disk.maxPathBytes ≤
      Disk.byteLength (Scratch.named root ending).files.source.chars
  · rw [perform_long r renderer hfresh hlong]
    refine hfresh.drop_same ?_ ?_
    · exact Disk.agreesOff_set d (List.suffix_refl _) _
    · exact Disk.get?_set_self d (Scratch.placeOf_ne_nil W ending) _
  · have hfits := hfresh.fits (Nat.not_le.mp hlong)
    obtain ⟨e, hprepare, hoff, hl, ⟨time, hsource⟩, himage⟩ :=
      prepare_fresh (r := r) hfresh.site hfits hfresh.drawn hfresh.missing now
    have hopens := hl.opens (hfresh.opens hoff)
    have hran := hinside _ e _ _ time hopens (hfits.spelled_source hfresh.drawn) hsource himage
    rw [(Invocation.perform_of_prepare hprepare renderer).1]
    refine hfresh.drop_same (hoff.trans (hran.mono ?_)) ?_
    · rintro q ⟨S, hS, hq, -⟩
      rwa [hopens.unique hS]
    · refine (hran.get _ ?_).trans hl.get
      rintro ⟨S, hS, -, hne⟩
      exact hne (hopens.unique hS)

/-- A rendering fails before it has a scratch directory, or runs its renderer in a new one. -/
theorem perform_cases (r : Rendering) (renderer : Renderer) (hd : d.WellFormed)
    {endings : List (List Char)} (hdrawn : ∀ ending ∈ endings, Scratch.Drawn ending) (now : Int) :
    (∃ cause, Scratch.allocate d r.workDir endings = (.error cause, (d.makeDirs r.workDir).2) ∧
      r.perform renderer endings d now = (.error (.io cause), (d.makeDirs r.workDir).2)) ∨
    ∃ root W ending, Scratch.Fresh root W ending (d.makeDirs r.workDir).2 ∧
      Scratch.allocate d r.workDir endings = (.ok (.named root ending),
        (d.makeDirs r.workDir).2.set (Scratch.placeOf W ending) .directory) ∧
      r.perform renderer endings d now =
        let invoked := (r.invocation (.named root ending)).perform renderer
          ((d.makeDirs r.workDir).2.set (Scratch.placeOf W ending) .directory) now
        (invoked.1, (Scratch.named root ending).drop invoked.2) := by
  have hmade := hd.makeDirs r.workDir
  unfold perform Scratch.allocate
  cases hroot : d.makeDirs r.workDir with
  | mk made d₁ =>
    rw [hroot] at hmade
    cases made with
    | error cause => exact .inl ⟨cause, rfl, rfl⟩
    | ok =>
      cases hallocate : Scratch.allocateIn d₁ (d₁.absolute r.workDir) endings with
      | mk allocated d₂ =>
        cases allocated with
        | error cause =>
          obtain rfl := Scratch.allocateIn_error hallocate
          exact .inl ⟨cause, hallocate, by simp only [hallocate]⟩
        | ok scratch =>
          obtain ⟨ending, hmem, rfl, hmake⟩ := Scratch.allocateIn_made hallocate
          obtain ⟨W, hfresh, rfl⟩ := Scratch.fresh_of_makeDir hmade (hdrawn _ hmem) hmake
          exact .inr ⟨_, W, ending, hfresh, hallocate, by simp only [hallocate]; rfl⟩

/-- A rendering does no more to the disk than to make the work directory. -/
theorem perform_same (r : Rendering) (hd : d.WellFormed) {endings : List (List Char)}
    (hdrawn : ∀ ending ∈ endings, Scratch.Drawn ending) (hinside : renderer.StaysInside)
    (now : Int) :
    Disk.Same (d.makeDirs r.workDir).2 (r.perform renderer endings d now).2 := by
  obtain ⟨cause, -, hperform⟩ | ⟨root, W, ending, hfresh, -, hperform⟩ :=
    perform_cases r renderer hd hdrawn now
  · rw [hperform]
    exact .refl _
  · rw [hperform]
    exact invocation_same hfresh hinside now

/-- After a rendering the disk is the same as before, whatever came of it, except that directories
on the way to the work directory may have been made where nothing was. -/
theorem leaves_no_trace (r : Rendering) (hd : d.WellFormed) {endings : List (List Char)}
    (hdrawn : ∀ ending ∈ endings, Scratch.Drawn ending) (hinside : renderer.StaysInside)
    (now : Int) : Disk.Paves r.workDir d (r.perform renderer endings d now).2 :=
  (Disk.makeDirs_paves d r.workDir).same (perform_same r hd hdrawn hinside now)

/-- A renderer that outlives its time and leaves a directory with a link to the root, and another
directory in the place of its image. -/
def litterer : Renderer := fun source d =>
  match d.find .keep source with
  | .ok (_ :: S, _) =>
    (.outlived, ((d.set ("cache".toList :: S) .directory).set
      ("latest".toList :: "cache".toList :: S) (.link ⟨"/".toList⟩)).set (scratchImage :: S)
        .directory)
  | _ => (.outlived, d)

theorem litterer_staysInside : litterer.StaysInside := by
  intro dir d S text time hopens hs hget _
  have hfind := (Disk.find_join scratchSource_ordinary).mpr ⟨hs, S, hopens, rfl, hget⟩
  have hinside : ∀ names, names ≠ [] → Inside d dir (names ++ S) := fun names hne =>
    ⟨S, hopens, List.suffix_append names S, fun h => hne (List.append_left_eq_self.mp h)⟩
  simp only [litterer, hfind]
  refine (Disk.agreesOff_set d ?_ _).trans
    ((Disk.agreesOff_set _ ?_ _).trans (Disk.agreesOff_set _ ?_ _))
  · exact hinside ["cache".toList] (List.cons_ne_nil _ _)
  · exact hinside ["latest".toList, "cache".toList] (List.cons_ne_nil _ _)
  · exact hinside [scratchImage] (List.cons_ne_nil _ _)

/-- The rendering of a text in a work directory that is missing with its parent. -/
def uphill : Rendering := ⟨.standard, ⟨"work/deep".toList⟩, "a"⟩

/-- What was littered is gone, and the two directories were made. -/
theorem litterer_leaves_no_trace :
    Disk.Paves uphill.workDir .empty (uphill.perform litterer ["aaaaaa".toList] .empty 5).2 ∧
    (uphill.perform litterer ["aaaaaa".toList] .empty 5).2.get? ["work".toList] =
      some .directory ∧
    (uphill.perform litterer ["aaaaaa".toList] .empty 5).2.get? ["deep".toList, "work".toList] =
      some .directory := by
  have hd : Disk.empty.WellFormed := ⟨fun name q h => absurd rfl h, rfl⟩
  have hfirst : Scratch.ending 0 = "aaaaaa".toList := by decide +kernel
  have hdrawn : ∀ ending ∈ ["aaaaaa".toList], Scratch.Drawn ending := by
    rw [← hfirst]
    simp [Scratch.drawn_ending]
  exact ⟨leaves_no_trace uphill hd hdrawn litterer_staysInside 5, by cbv, by cbv⟩

end Rendering

end DiagramService
