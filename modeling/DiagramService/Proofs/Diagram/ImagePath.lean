import DiagramService.Proofs.Diagram.Files
import DiagramService.Proofs.Disk.LastName

/-! Where the image of a source goes. The image has the directory of its source and the name of its
source with another extension, so it is another entry unless that is the extension already. Two
paths can still lead to one file along symbolic links. -/

namespace DiagramService

/-- A name is its stem with an extension just if it has that extension. -/
theorem FileName.eq_stem_append_iff {name : FileName} {ext : List Char} :
    stem name ++ '.' :: ext = name ↔ extension? name = some ext := by
  unfold stem extension?
  cases hsplit : splitLastDot? name with
  | none => simp
  | some cut =>
    obtain ⟨before, old⟩ := cut
    obtain ⟨hname, -⟩ := splitLastDot?_eq_some_iff.mp hsplit
    show before ++ '.' :: ext = name ↔ some old = some ext
    rw [hname, List.append_cancel_left_eq, List.cons.injEq, Option.some.injEq]
    exact ⟨fun h => h.2.symm, fun h => ⟨rfl, h.symm⟩⟩

/-- Only a name with this extension keeps its name when it is given the extension. -/
theorem FileName.extension?_of_withExtension {name : FileName} {ext : List Char}
    (hdots : name ≠ ['.', '.']) (h : name.withExtension ext = name) :
    name.extension? = some ext := by
  unfold withExtension at h
  split at h
  · exact absurd h.symm hdots
  · exact eq_stem_append_iff.mp h

theorem FileName.slash_not_mem_stem {name : FileName} (hslash : '/' ∉ name) :
    '/' ∉ stem name := by
  unfold stem
  cases hsplit : splitLastDot? name with
  | none => exact hslash
  | some cut =>
    obtain ⟨before, old⟩ := cut
    obtain ⟨rfl, -⟩ := splitLastDot?_eq_some_iff.mp hsplit
    exact fun hmem => hslash (List.mem_append_left _ hmem)

theorem FileName.slash_not_mem_withExtension {name : FileName} {ext : List Char}
    (hslash : '/' ∉ name) (hext : '/' ∉ ext) : '/' ∉ name.withExtension ext := by
  have hstem := slash_not_mem_stem hslash
  unfold withExtension
  split
  · decide
  · simp [hstem, hext]

theorem slash_not_mem_imageExtension : '/' ∉ imageExtension := by
  decide

/-- The image of a source that is a file has a name in the directory of the source. -/
theorem renderedImagePath_beside {d : Disk} {source : Path} {last : Disk.LastLink} {q : Place}
    {x : Entry} (h : d.find last source = .ok (q, x)) (hx : x ≠ .directory) :
    ∃ (dir : Path) (name : FileName), source = dir.join name ∧ Disk.Ordinary name ∧
      renderedImagePath source = dir.join (name.withExtension imageExtension) := by
  obtain ⟨dir, name, rfl, hslash⟩ := source.exists_join
  have hn := Disk.ordinary_of_find hslash h hx
  exact ⟨dir, name, rfl, hn,
    Path.withExtension_name dir hn.nonempty hn.noSlash hn.notDot hn.notDots _⟩

/-- Without links a source and its image are one entry only if the source has the extension of an
image. -/
theorem extension?_of_same_entry {d : Disk} {source : Path} {q : Place} {x : Entry}
    (hx : x ≠ .directory) (h : d.find .keep source = .ok (q, x))
    (h' : d.find .keep (renderedImagePath source) = .ok (q, x)) :
    source.extension? = some imageExtension := by
  obtain ⟨dir, name, rfl, hn, himage⟩ := renderedImagePath_beside h hx
  rw [himage] at h'
  have hn' := Disk.ordinary_of_find
    (FileName.slash_not_mem_withExtension hn.noSlash slash_not_mem_imageExtension) h' hx
  obtain ⟨-, D, hD, rfl, -⟩ := (Disk.find_join hn).mp h
  obtain ⟨-, E, hE, hname, -⟩ := (Disk.find_join hn').mp h'
  rw [Path.extension?, Path.fileName?_join dir hn]
  exact FileName.extension?_of_withExtension hn.notDots (List.cons.inj hname).1.symm

/-- A link in the place of an image is still the same when directories have been made, and was there
before. -/
theorem Disk.Grows.find_image_link {d e : Disk} (hgrow : d.Grows e) {source : Path}
    {last : Disk.LastLink} {q : Place} {x : Entry} (h : d.find last source = .ok (q, x))
    (hx : x ≠ .directory) {r : Place} {target : Path}
    (hlink : e.find .keep (renderedImagePath source) = .ok (r, .link target)) :
    d.find .keep (renderedImagePath source) = .ok (r, .link target) := by
  obtain ⟨dir, name, rfl, hn, himage⟩ := renderedImagePath_beside h hx
  rw [himage] at hlink ⊢
  have hn' := Disk.ordinary_of_find
    (FileName.slash_not_mem_withExtension hn.noSlash slash_not_mem_imageExtension) hlink nofun
  obtain ⟨D, hD⟩ := Disk.opens_of_locate_join hn (Disk.locate_of_find h)
  obtain ⟨hs, E, hE, rfl, hget⟩ := (Disk.find_join hn').mp hlink
  obtain rfl : D = E := (hD.mono hgrow.working fun _ _ => hgrow.get_of_some).unique hE
  exact (Disk.find_join hn').mpr ⟨hs, D, hD, rfl, hgrow.noNewLinks _ _ hget⟩

end DiagramService
