import DiagramService.Proofs.Diagram.ImagePath
import DiagramService.Proofs.Disk.Same
import DiagramService.Proofs.Render.Leftovers

/-! The text that the renderer is started on. An invocation writes the text and then removes an
image, so the text is there when the renderer starts unless it was lost with the image. This takes
a source whose path leads through the entry that is removed. -/

namespace DiagramService

namespace Invocation

variable {i : Invocation} {d start : Disk} {now : Int}

/-- The renderer is started on the disk with the source, or on what is left of it without the
image. -/
theorem prepare_run (h : i.prepare d now = (.run, start)) :
    ∃ written, d.writeFile i.files.source (Utf8.encode i.text) now = (.ok (), written) ∧
      (start = written ∨ ∃ I x, written.find .keep i.files.image = .ok (I, x) ∧
        x ≠ .directory ∧ start = written.erase I) := by
  unfold prepare write at h
  cases hwrite : d.writeFile i.files.source (Utf8.encode i.text) now with
  | mk answer written =>
    simp only [hwrite] at h
    cases answer with
    | error cause => cases h
    | ok =>
      simp only [step, clear] at h
      cases hremove : written.removeFile i.files.image with
      | mk answer e =>
        simp only [hremove] at h
        cases answer with
        | ok =>
          cases h
          exact ⟨written, rfl, .inr (Disk.removeFile_ok hremove)⟩
        | error cause =>
          simp only at h
          split at h
          · cases h
            exact ⟨written, rfl, .inl (Disk.removeFile_error hremove)⟩
          · cases h

/-- Without a device the text has been written to a file when the renderer is started. -/
theorem prepare_written (h : i.prepare d now = (.run, start))
    (hdevice : ∀ q kind, d.find .follow i.files.source ≠ .ok (q, .device kind)) :
    let written := (d.writeFile i.files.source (Utf8.encode i.text) now).2
    (∃ q, written.find .follow i.files.source = .ok (q, .file (Utf8.encode i.text) now)) ∧
      (start = written ∨ ∃ I x, written.find .keep i.files.image = .ok (I, x) ∧
        x ≠ .directory ∧ start = written.erase I) := by
  obtain ⟨written, hwrite, hcleared⟩ := prepare_run h
  rw [hwrite]
  obtain ⟨q, hl, hq, rfl⟩ | ⟨⟨q, kind, hfind⟩, -⟩ := Disk.writeFile_ok hwrite
  · exact ⟨⟨q, Disk.find_set_file hl hq _ _⟩, hcleared⟩
  · exact absurd hfind (hdevice q kind)

end Invocation

/-- Whenever the renderer is started, its source is a file with exactly the text that is to be
rendered, unless the source was a device, if the entry of the image is not on the way to it. This is
so whenever the source has another extension than an image and neither of them is a link. -/
theorem renderer_is_given_the_text (config : RendererConfig) (text : String) (source : Path)
    (d start : Disk) (now : Int)
    (hstart : (Invocation.mk config text (.forSource source)).prepare d now = (.run, start))
    (hdevice : ∀ q kind, d.find .follow source ≠ .ok (q, .device kind)) :
    let written := (d.writeFile source (Utf8.encode text) now).2
    let given := ∃ q, start.find .follow source = .ok (q, .file (Utf8.encode text) now)
    ((∀ I, written.At (renderedImagePath source) I → I ∉ written.trail .follow source) → given) ∧
    (source.extension? ≠ some imageExtension →
      (∀ q target, d.find .keep source ≠ .ok (q, .link target)) →
      (∀ q target, d.find .keep (renderedImagePath source) ≠ .ok (q, .link target)) → given) := by
  intro written given
  obtain ⟨⟨q, hfind⟩, hcleared⟩ := Invocation.prepare_written hstart hdevice
  change written.find .follow source = .ok (q, .file (Utf8.encode text) now) at hfind
  obtain hsame | ⟨I, x, himage, hx, herased⟩ := hcleared
  · have hgiven : given := ⟨q, by rw [hsame]; exact hfind⟩
    exact ⟨fun _ => hgiven, fun _ _ _ => hgiven⟩
  change written.find .keep (renderedImagePath source) = .ok (I, x) at himage
  change start = written.erase I at herased
  have hoff : Disk.AgreesOff (· = I) written start := by
    rw [herased]
    exact Disk.agreesOff_erase written rfl
  refine ⟨fun haside => ⟨q, ?_⟩, fun hextension hsource hlink => ⟨q, ?_⟩⟩
  · have hplace : I ∉ written.trail .follow source :=
      haside I ⟨_, Disk.locate_of_find himage, rfl⟩
    have hlocate := Disk.locate_congr hoff.working fun r hr =>
      hoff.get r fun h : r = I => hplace (h ▸ hr)
    exact Disk.find_of_locate (hlocate.trans (Disk.locate_of_find hfind))
  · have hadds : Disk.AddsFiles d written := Disk.writeFile_addsFiles d source _ now
    have hkeep := Disk.find_keep_of_follow
      (fun r target h => hsource r target (hadds.find_link h)) hfind
    -- the entry that was removed is another file than the source
    have hne : q ≠ I := by
      rintro rfl
      have hget := Disk.find_entry hkeep nofun
      cases hget.symm.trans (Disk.find_entry himage hx)
      exact hextension (extension?_of_same_entry hx hkeep himage)
    refine Disk.find_of_agreesOff hfind hoff hne ?_
    rintro r rfl
    have hget := Disk.find_entry himage hx
    refine ⟨fun h => hx ?_, fun target h => hlink r target (hadds.find_link ?_)⟩
    · cases hget.symm.trans h
      rfl
    · cases hget.symm.trans h
      exact himage

/-- A text for a file in the root and for the image that belongs to it. -/
def onDesk (name : FileName) : Invocation :=
  ⟨.standard, "b", .forSource (deskFile name)⟩

/-- An image that was left beside the source does not matter to it. -/
theorem staleDesk_hands_over : ∃ start,
    (onDesk "a.puml".toList).prepare staleDesk 5 = (.run, start) ∧
    ∃ q, start.find .follow (deskFile "a.puml".toList) = .ok (q, .file (Utf8.encode "b") 5) := by
  have hstart : (onDesk "a.puml".toList).prepare staleDesk 5 =
      (.run, ((onDesk "a.puml".toList).prepare staleDesk 5).2) := by
    cbv
  have hsource : ∀ last, staleDesk.find last (deskFile "a.puml".toList) =
      .ok (["a.puml".toList], .file [97] 0) := by
    rintro (_ | _) <;> cbv
  have himage : staleDesk.find .keep (renderedImagePath (deskFile "a.puml".toList)) =
      .ok (["a.png".toList], .file [1] 0) := by
    cbv
  obtain ⟨-, hgiven⟩ := renderer_is_given_the_text .standard "b" (deskFile "a.puml".toList)
    staleDesk _ 5 hstart (fun q kind h => by cases (hsource _).symm.trans h)
  exact ⟨_, hstart, hgiven (by decide) (fun q target h => by cases (hsource _).symm.trans h)
    fun q target h => by cases himage.symm.trans h⟩

/-- A disk with a device that drops what is written to it. -/
def sinkDesk : Disk :=
  Disk.empty.set ["null".toList] (.device .null)

/-- A device does not keep the text, and a source with the name of its image is removed again. -/
theorem text_is_lost :
    (∃ start, (onDesk "null".toList).prepare sinkDesk 5 = (.run, start) ∧
      start.contentAt (deskFile "null".toList) = .ok []) ∧
    ∃ start, (onDesk "a.png".toList).prepare .empty 5 = (.run, start) ∧
      start.contentAt (deskFile "a.png".toList) = .error .notFound :=
  ⟨⟨((onDesk "null".toList).prepare sinkDesk 5).2, by cbv, by cbv⟩,
    ⟨((onDesk "a.png".toList).prepare .empty 5).2, by cbv, by cbv⟩⟩

end DiagramService
