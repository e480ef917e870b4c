import Mathlib
import DiagramService.Proofs.Disk.Same
import DiagramService.Proofs.Disk.Slot
import DiagramService.Proofs.Render.Invocation

/-! What earlier runs have left. The source is overwritten and the image is removed before the
renderer is started, so the renderer finds the same disk whatever was left at these two paths, and
what is read as its image was made by it. -/

namespace DiagramService

/-- How a renderer ends and what it does are a matter of what is on the disk that it is started on.
-/
def Renderer.GoesByDisk (renderer : Renderer) : Prop :=
  ∀ source d e, Disk.Same d e → (renderer source d).1 = (renderer source e).1 ∧
    Disk.Same (renderer source d).2 (renderer source e).2

namespace Invocation

section Leftovers

variable {i : Invocation} {d e d' e' : Disk} {S I : Place} {now : Int}

/-- Where the renderer is started the source holds the text, the image is missing, and all else is
as it was. -/
structure Prepared (i : Invocation) (S I : Place) (d : Disk) (now : Int) (d' : Disk) : Prop where
  image : d'.get? I = none
  off : Disk.AgreesOff (· = I) (d.set S (.file (Utf8.encode i.text) now)) d'

theorem clear_slot (h : d.Slot i.files.image I) :
    ∃ d', i.clear d = (.run, d') ∧ d'.get? I = none ∧ Disk.AgreesOff (· = I) d d' := by
  unfold clear
  rw [h.removeFile]
  by_cases hget : d.get? I = none
  · refine ⟨d, ?_, hget, .refl _ d⟩
    rw [if_pos hget]
    rfl
  · refine ⟨d.erase I, ?_, Disk.get?_erase_self d h.plain.ne_nil, Disk.agreesOff_erase d rfl⟩
    rw [if_neg hget]
    rfl

/-- A run is prepared if the source and the image can come and go. -/
theorem prepare_slots (hsource : d.Slot i.files.source S) (himage : d.Slot i.files.image I)
    (now : Int) : ∃ d', i.prepare d now = (.run, d') ∧ Prepared i S I d now d' := by
  obtain ⟨d', hclear, hget, hoff⟩ :=
    clear_slot (himage.set_file hsource.plain (Utf8.encode i.text) now)
  refine ⟨d', ?_, hget, hoff⟩
  have hwrite : i.write d now = (.clear, d.set S (.file (Utf8.encode i.text) now)) := by
    unfold write
    rw [hsource.writeFile]
    rfl
  unfold prepare
  rw [hwrite]
  exact hclear

/-- There is no image where the renderer is started. -/
theorem Prepared.contentAt (h : Prepared i S I d now d') (hS : d.Plain S)
    (himage : d.Slot i.files.image I) : d'.contentAt i.files.image = .error .notFound := by
  have hslot := himage.set_file hS (Utf8.encode i.text) now
  refine (hslot.carry h.off ?_ (Disk.plain_of_get? h.image)).contentAt_of_get? h.image
  rintro r rfl
  exact hslot.plain

/-- The renderer is started on the same disk whatever was at the source and at the image. -/
theorem Prepared.same (hd : Prepared i S I d now d') (he : Prepared i S I e now e')
    (hoff : Disk.AgreesOff (fun q => q = S ∨ q = I) d e) (hS : S ≠ []) : Disk.Same d' e' := by
  refine ⟨hd.off.working.trans (hoff.working.symm.trans he.off.working.symm), fun q => ?_⟩
  by_cases hqI : q = I
  · rw [hqI, hd.image, he.image]
  · rw [hd.off.get q hqI, he.off.get q hqI]
    by_cases hqS : q = S
    · rw [hqS, Disk.get?_set_self d hS, Disk.get?_set_self e hS]
    · rw [Disk.get?_set_of_ne d hqS, Disk.get?_set_of_ne e hqS]
      exact (hoff.get q fun hq => hq.elim hqS hqI).symm

/-- The image is read alike on disks that hold the same. -/
theorem read_same (i : Invocation) (h : Disk.Same d e) : i.read d = i.read e := by
  simp only [read, h.contentAt]

/-- Runs that start on disks that hold the same come to the same. -/
theorem perform_same {renderer : Renderer} (hrenderer : renderer.GoesByDisk)
    (hd : i.prepare d now = (.run, d')) (he : i.prepare e now = (.run, e'))
    (hsame : Disk.Same d' e') :
    (i.perform renderer d now).1 = (i.perform renderer e now).1 ∧
      Disk.Same (i.perform renderer d now).2 (i.perform renderer e now).2 := by
  obtain ⟨houtcome, hleft⟩ := hrenderer i.files.source d' e' hsame
  obtain ⟨hdiskd, hresultd⟩ := perform_of_prepare hd renderer
  obtain ⟨hdiske, hresulte⟩ := perform_of_prepare he renderer
  refine ⟨?_, by rw [hdiskd, hdiske]; exact hleft⟩
  rw [houtcome] at hresultd
  obtain ⟨hreadd, hresultd⟩ | ⟨error, herrord, hresultd⟩ := hresultd
  · obtain ⟨-, hresulte⟩ | ⟨error, herrore, -⟩ := hresulte
    · rw [hresultd, hresulte]
      exact i.read_same hleft
    · exact nomatch hreadd.symm.trans herrore
  · obtain ⟨hreade, -⟩ | ⟨error', herrore, hresulte⟩ := hresulte
    · exact nomatch hreade.symm.trans herrord
    · cases herrord.symm.trans herrore
      rw [hresultd, hresulte]

/-- An image that is returned is what the renderer has left. -/
theorem perform_image {renderer : Renderer} (hd : i.prepare d now = (.run, d')) {image : Bytes}
    (h : (i.perform renderer d now).1 = .ok image) :
    (renderer i.files.source d').2.contentAt i.files.image = .ok image := by
  obtain ⟨-, ⟨-, hresult⟩ | ⟨error, -, hresult⟩⟩ := perform_of_prepare hd renderer
  · exact contentAt_of_read (hresult.symm.trans h)
  · exact nomatch hresult.symm.trans h

end Leftovers

end Invocation

/-- On two disks that hold the same but for files that are at the source or at the image, or are
not, a run comes to the same result and leaves disks that hold the same. The renderer is started
where there is no image, and an image that is returned is what the renderer has left. -/
theorem leftovers_do_not_matter (i : Invocation) {renderer : Renderer}
    (hrenderer : renderer.GoesByDisk) {d e : Disk} {S I : Place}
    (hoff : Disk.AgreesOff (fun q => q = S ∨ q = I) d e) (hsource : d.Slot i.files.source S)
    (himage : d.Slot i.files.image I) (hS : e.Plain S) (hI : e.Plain I) (now : Int) :
    (i.perform renderer d now).1 = (i.perform renderer e now).1 ∧
    Disk.Same (i.perform renderer d now).2 (i.perform renderer e now).2 ∧
    ∃ start, i.prepare d now = (.run, start) ∧
      start.contentAt i.files.image = .error .notFound ∧
      ∀ image, (i.perform renderer d now).1 = .ok image →
        (renderer i.files.source start).2.contentAt i.files.image = .ok image := by
  have hplain : ∀ q, q = S ∨ q = I → d.Plain q := by
    rintro q (rfl | rfl)
    · exact hsource.plain
    · exact himage.plain
  obtain ⟨d', hd, hprepared⟩ := Invocation.prepare_slots hsource himage now
  obtain ⟨e', he, hprepared'⟩ := Invocation.prepare_slots (hsource.carry hoff hplain hS)
    (himage.carry hoff hplain hI) now
  have hsame := hprepared.same hprepared' hoff hsource.plain.ne_nil
  obtain ⟨hresult, hleft⟩ := Invocation.perform_same hrenderer hd he hsame
  exact ⟨hresult, hleft, d', hd, hprepared.contentAt hsource.plain himage,
    fun _ hok => Invocation.perform_image hd hok⟩

/-- A renderer that does nothing and is content with it. -/
def idler : Renderer := fun _ d => (.ended (some 0) [], d)

theorem idler_goesByDisk : idler.GoesByDisk :=
  fun _ _ _ h => ⟨rfl, h⟩

/-- The path of a file in the root. -/
def deskFile (name : FileName) : Path :=
  Path.join ⟨"/".toList⟩ name

/-- A text for two files in the root. -/
def deskInvocation : Invocation :=
  ⟨.standard, "b", ⟨deskFile "a.puml".toList, deskFile "a.png".toList⟩⟩

/-- What an earlier text has left there. -/
def staleDesk : Disk :=
  (Disk.empty.set ["a.puml".toList] (.file [97] 0)).set ["a.png".toList] (.file [1] 0)

/-- The image that was left is not returned, and the text of now is in the source. -/
theorem staleDesk_does_not_matter :
    (deskInvocation.perform idler .empty 5).1 = (deskInvocation.perform idler staleDesk 5).1 ∧
    Disk.Same (deskInvocation.perform idler .empty 5).2
      (deskInvocation.perform idler staleDesk 5).2 ∧
    staleDesk.contentAt deskInvocation.files.image = .ok [1] ∧
    (deskInvocation.perform idler staleDesk 5).1 =
      .error (.outputMissing deskInvocation.files.image) ∧
    (deskInvocation.perform idler staleDesk 5).2.contentAt deskInvocation.files.source =
      .ok (Utf8.encode "b") := by
  have hoff : Disk.AgreesOff (fun q => q = ["a.puml".toList] ∨ q = ["a.png".toList]) .empty
      staleDesk :=
    (Disk.agreesOff_set _ (.inl rfl) _).trans (Disk.agreesOff_set _ (.inr rfl) _)
  have hopens : Disk.empty.Opens ⟨"/".toList⟩ [] := by cbv
  have hslot : ∀ name, Disk.Ordinary name → Disk.Spelled (deskFile name) →
      Disk.empty.Slot (deskFile name) [name] :=
    fun _ hn hs => hopens.slot hn hs (Disk.plain_of_get? rfl)
  obtain ⟨hresult, hleft, -⟩ := leftovers_do_not_matter deskInvocation idler_goesByDisk hoff
    (hslot _ ⟨by decide, by decide, by decide, by decide, by decide⟩
      ⟨by decide, by decide, by decide⟩)
    (hslot _ ⟨by decide, by decide, by decide, by decide, by decide⟩
      ⟨by decide, by decide, by decide⟩) (Disk.plain_of_file rfl) (Disk.plain_of_file rfl) 5
  exact ⟨hresult, hleft, by cbv, by cbv, by cbv⟩

end DiagramService
