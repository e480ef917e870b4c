import DiagramService.Proofs.Diagram.ImagePath
import DiagramService.Proofs.Path.Parts

/-! The laws of the derived image path. The image of a source has the parent and the stem of the
source, and so does its own image. All of this rests on the name that is left when the extension is
cut. Only under the stem `.` is that no name but two dots: `..a` has the image `..`, which is the
parent directory. -/

namespace DiagramService

namespace FileName

variable {name : FileName} {before old : List Char}

/-- A name that counts has a stem. -/
theorem stem_ne_nil (hne : name ≠ []) : stem name ≠ [] := by
  unfold stem
  cases hsplit : splitLastDot? name with
  | none => exact hne
  | some cut =>
    obtain ⟨-, hbefore, -, -⟩ := splitLastDot?_eq_some_iff.mp hsplit
    exact hbefore

theorem stem_of_split (h : splitLastDot? name = some (before, old)) : stem name = before := by
  rw [stem, h]

/-- A stem with the extension of images is cut where it was put together. -/
theorem splitLastDot?_image (hne : before ≠ []) :
    splitLastDot? (before ++ '.' :: imageExtension) = some (before, imageExtension) := by
  refine splitLastDot?_eq_some_iff.mpr ⟨rfl, hne, by decide, fun hdots => ?_⟩
  have hlast := congrArg List.getLast? hdots
  simp [imageExtension] at hlast

end FileName

namespace Path

variable {p q : Path} {base base' : List Char} {name name' : FileName} {tail tail' : List Char}

/-! ## Replacing an extension -/

theorem Parts.extension? (h : Parts p base name tail) :
    p.extension? = FileName.extension? name := by
  rw [Path.extension?, h.fileName?]
  rfl

theorem Parts.fileStem? (h : Parts p base name tail) : p.fileStem? = some (FileName.stem name) := by
  rw [Path.fileStem?, h.fileName?]
  rfl

/-- Without text after the name, the extension is replaced in the name. -/
theorem Parts.withExtension_of_nil (h : Parts p base name []) (ext : List Char) :
    p.withExtension ext = ⟨base ++ name.withExtension ext⟩ := by
  have hjoin : ∀ name : FileName, (⟨base⟩ : Path).join name = ⟨base ++ name⟩ := by
    intro name
    have hend : (base.isEmpty || base.getLast? == some '/') = true := by
      rcases h.ends with rfl | hlast
      · rfl
      · simp [hlast]
    rw [join, if_pos hend]
  have hp : p = ⟨base ++ name⟩ := by
    rw [← List.append_nil (base ++ name), ← h.chars]
  rw [hp, ← hjoin, withExtension_name _ h.nonempty h.noSlash h.notDot h.notDots, hjoin]

/-- What is cut from a path with text after its name: the text and the end of the extension, or only
a part of the text. The dot stays. -/
theorem Parts.cutExtension (h : Parts p base name tail) (htail : tail ≠ [])
    {before old : List Char} (hsplit : FileName.splitLastDot? name = some (before, old)) :
    Parts p.cutExtension base (before ++ '.' :: old.take tail.length)
        (tail.take (tail.length - old.length)) ∧
      FileName.splitLastDot? (before ++ '.' :: old.take tail.length) =
        some (before, old.take tail.length) := by
  obtain ⟨hname, hbefore, hold, hdots⟩ := FileName.splitLastDot?_eq_some_iff.mp hsplit
  have hchars : p.cutExtension.chars =
      base ++ (before ++ '.' :: old.take tail.length) ++ tail.take (tail.length - old.length) := by
    have hp : p.chars = base ++ (before ++ ['.']) ++ (old ++ tail) := by
      rw [h.chars, hname]
      simp
    have hlength : p.chars.length - old.length =
        (base ++ (before ++ ['.'])).length + tail.length := by
      rw [hp]
      simp only [List.length_append]
      omega
    have hext : p.extension? = some old := by
      rw [h.extension?, FileName.extension?, hsplit]
      rfl
    rw [Path.cutExtension, hext]
    show p.chars.take (p.chars.length - old.length) = _
    rw [hlength, hp, List.take_length_add_append, List.take_append]
    simp
  have hnot : before ++ '.' :: old.take tail.length ≠ ['.', '.'] := by
    intro hparent
    obtain ⟨rfl, hnil⟩ : before = ['.'] ∧ old.take tail.length = [] := by
      obtain ⟨b, bs, rfl⟩ := List.exists_cons_of_ne_nil hbefore
      cases bs with
      | nil => simpa using hparent
      | cons c cs => simp at hparent
    -- there is text after the name, so nothing is cut that would leave two dots
    have hempty : old = [] := by
      simpa [htail] using hnil
    exact hdots (by rw [hname, hempty]; rfl)
  refine ⟨⟨hchars, h.ends, by simp, ?_, ?_, hnot, h.void.take _⟩, ?_⟩
  · intro hmem
    refine h.noSlash (hname ▸ ?_)
    rcases List.mem_append.mp hmem with hmem | hmem
    · exact List.mem_append_left _ hmem
    · rcases List.mem_cons.mp hmem with hmem | hmem
      · exact absurd hmem (by decide)
      · exact List.mem_append_right _ (List.mem_cons_of_mem _ (List.mem_of_mem_take hmem))
  · intro hdot
    have hlength := congrArg List.length hdot
    have hpos := List.length_pos_iff.mpr hbefore
    simp only [List.length_append, List.length_cons, List.length_nil] at hlength
    omega
  · exact FileName.splitLastDot?_eq_some_iff.mpr
      ⟨rfl, hbefore, fun hmem => hold (List.mem_of_mem_take hmem), hnot⟩

/-- With text after the name, the stem stays whatever it is. -/
theorem Parts.withExtension_of_ne_nil (h : Parts p base name tail) (htail : tail ≠ [])
    (ext : List Char) :
    p.withExtension ext = ⟨base ++ FileName.stem name ++ '.' :: ext⟩ := by
  cases hsplit : FileName.splitLastDot? name with
  | none =>
    have hcut : p.cutExtension = p := by
      rw [Path.cutExtension, h.extension?, FileName.extension?, hsplit]
      rfl
    rw [withExtension, hcut, setExtension, h.split?]
  | some cut =>
    obtain ⟨before, old⟩ := cut
    obtain ⟨hparts, hcut⟩ := h.cutExtension htail hsplit
    rw [withExtension, setExtension, hparts.split?]
    show (⟨base ++ FileName.stem _ ++ '.' :: ext⟩ : Path) = _
    rw [FileName.stem_of_split hcut, FileName.stem_of_split hsplit]

/-! ## Images -/

theorem renderedImagePath_of_no_name (h : p.fileName? = none) : renderedImagePath p = p := by
  have hext : p.extension? = none := by
    rw [Path.extension?, h]
    rfl
  have hsplit : p.split? = none := Option.map_eq_none_iff.mp h
  rw [renderedImagePath, withExtension, cutExtension, hext]
  show p.setExtension imageExtension = p
  rw [setExtension, hsplit]

/-- The image of a source under another stem than `.` has the stem in the directory of the
source. -/
theorem Parts.image (h : Parts p base name tail) (hstem : FileName.stem name ≠ ['.']) :
    Parts (renderedImagePath p) base (FileName.stem name ++ '.' :: imageExtension) [] := by
  have hchars : renderedImagePath p = ⟨base ++ FileName.stem name ++ '.' :: imageExtension⟩ := by
    by_cases htail : tail = []
    · subst htail
      rw [renderedImagePath, h.withExtension_of_nil, FileName.withExtension, if_neg hstem,
        List.append_assoc]
    · exact h.withExtension_of_ne_nil htail imageExtension
  obtain ⟨-, -, -, hdots⟩ := FileName.splitLastDot?_eq_some_iff.mp
    (FileName.splitLastDot?_image (FileName.stem_ne_nil h.nonempty))
  refine ⟨by rw [hchars]; simp, h.ends, by simp, ?_, ?_, hdots, .nil⟩
  · have hslash := FileName.slash_not_mem_stem h.noSlash
    simpa [imageExtension] using hslash
  · intro hdot
    have hlast := congrArg List.getLast? hdot
    simp [imageExtension] at hlast

/-- Under the stem `.` the image is the parent directory, unless more text follows the name. -/
theorem Parts.image_of_dot (h : Parts p base name tail) (hstem : FileName.stem name = ['.']) :
    renderedImagePath p =
      if tail = [] then ⟨base ++ ['.', '.']⟩ else ⟨base ++ '.' :: '.' :: imageExtension⟩ := by
  by_cases htail : tail = []
  · subst htail
    rw [renderedImagePath, h.withExtension_of_nil, FileName.withExtension, if_pos hstem, if_pos rfl]
  · rw [renderedImagePath, h.withExtension_of_ne_nil htail, hstem, if_neg htail]
    simp

theorem Parts.image_stem (h : Parts p base name tail) :
    FileName.stem (FileName.stem name ++ '.' :: imageExtension) = FileName.stem name :=
  FileName.stem_of_split (FileName.splitLastDot?_image (FileName.stem_ne_nil h.nonempty))

theorem Parts.unique (h : Parts p base name tail) (h' : Parts q base name tail) : p = q := by
  obtain ⟨cs⟩ := p
  obtain ⟨cs'⟩ := q
  rw [mk.injEq]
  exact h.chars.trans h'.chars.symm

/-- The image is its own image. -/
theorem Parts.image_image (h : Parts p base name tail) (hstem : FileName.stem name ≠ ['.']) :
    renderedImagePath (renderedImagePath p) = renderedImagePath p := by
  have hagain := (h.image hstem).image (by rwa [h.image_stem])
  rw [h.image_stem] at hagain
  exact hagain.unique (h.image hstem)

theorem Parts.same_iff (h : Parts p base name tail) (h' : Parts q base' name' tail') :
    p.same q = true ↔
      (above base).components = (above base').components ∧ name = name' := by
  show (p.components == q.components) = true ↔ _
  rw [beq_iff_eq, h.components, h'.components]
  constructor
  · intro heq
    obtain ⟨habove, hlast⟩ := List.append_inj' heq rfl
    injection hlast with hname
    injection hname with hname
    exact ⟨habove, hname⟩
  · rintro ⟨habove, rfl⟩
    rw [habove]

/-- The last component of the image of a source. -/
theorem Parts.getLast?_image (h : Parts p base name tail) :
    (renderedImagePath p).components.getLast? =
      some (if FileName.stem name = ['.'] ∧ tail = [] then .parent
        else .normal (FileName.stem name ++ '.' :: imageExtension)) := by
  by_cases hstem : FileName.stem name = ['.']
  · rw [h.image_of_dot hstem, hstem]
    by_cases htail : tail = []
    · rw [if_pos htail, if_pos ⟨rfl, htail⟩,
        components_base h.ends (by decide) (by decide) (by decide), List.getLast?_append]
      rfl
    · rw [if_neg htail, if_neg fun hboth => htail hboth.2,
        components_base h.ends (by decide) (by decide) (by decide), List.getLast?_append]
      rfl
  · rw [if_neg fun hboth => hstem hboth.1, (h.image hstem).components, List.getLast?_append]
    rfl

/-- Sources in one directory have the same image only under the same stem. -/
theorem Parts.image_same_iff (h : Parts p base name tail) (h' : Parts q base' name' tail')
    (hstem : FileName.stem name ≠ ['.'])
    (habove : (above base).components = (above base').components) :
    (renderedImagePath p).same (renderedImagePath q) = true ↔
      FileName.stem name = FileName.stem name' := by
  constructor
  · intro hsame
    have hcomponents : (renderedImagePath p).components = (renderedImagePath q).components :=
      eq_of_beq hsame
    have hlast := congrArg List.getLast? hcomponents
    rw [h.getLast?_image, h'.getLast?_image, if_neg fun hboth => hstem hboth.1] at hlast
    split at hlast
    · simp at hlast
    · injection hlast with hlast
      injection hlast with hlast
      exact List.append_cancel_right hlast
  · intro hstems
    rw [(h.image hstem).same_iff (h'.image (hstems ▸ hstem))]
    exact ⟨habove, by rw [hstems]⟩

end Path

/-- The laws of the derived image path. A source without a file name, which is empty, a root or a
dot or ends in two dots, is its own image. Unless the stem is `.`, an image is its own image, has the
parent and the stem of its source and the extension of images, is the source just if that has the
extension, and is shared by the sources under the same parent that have the same stem. Under the
stem `.` the image is the parent directory, or `..png` there if slashes or dots follow the name of
the source. -/
theorem image_path_laws (source : Path) :
    (source.fileName? = none ↔
      source.components ∈ [[], [.root], [.current]] ∨
        source.components.getLast? = some .parent) ∧
    (source.fileName? = none → renderedImagePath source = source) ∧
    (source.fileStem? ≠ some ['.'] →
      renderedImagePath (renderedImagePath source) = renderedImagePath source) ∧
    (source.fileName? ≠ none → source.fileStem? ≠ some ['.'] →
      (renderedImagePath source).parent? = source.parent? ∧
      (renderedImagePath source).fileStem? = source.fileStem? ∧
      (renderedImagePath source).extension? = some imageExtension ∧
      ((renderedImagePath source).same source = true ↔
        source.extension? = some imageExtension) ∧
      ∀ other : Path, other.fileName? ≠ none →
        source.parent?.map Path.components = other.parent?.map Path.components →
        ((renderedImagePath source).same (renderedImagePath other) = true ↔
          source.fileStem? = other.fileStem?)) ∧
    ∀ base name, source.split? = some (base, name) → FileName.stem name = ['.'] →
      renderedImagePath source =
        if source.chars = base ++ name then ⟨base ++ ['.', '.']⟩
        else ⟨base ++ '.' :: '.' :: imageExtension⟩ := by
  refine ⟨Path.fileName?_eq_none_iff, Path.renderedImagePath_of_no_name, fun hdot => ?_,
    fun hname hdot => ?_, fun base name hsplit hdot => ?_⟩
  · cases hname : source.fileName? with
    | none => rw [Path.renderedImagePath_of_no_name hname, Path.renderedImagePath_of_no_name hname]
    | some name =>
      obtain ⟨base, tail, hparts⟩ := Path.exists_parts_of_fileName hname
      rw [hparts.fileStem?] at hdot
      exact hparts.image_image fun hstem => hdot (congrArg some hstem)
  · obtain ⟨name, hname⟩ := Option.ne_none_iff_exists'.mp hname
    obtain ⟨base, tail, hparts⟩ := Path.exists_parts_of_fileName hname
    rw [hparts.fileStem?] at hdot
    have hstem : FileName.stem name ≠ ['.'] := fun hstem => hdot (congrArg some hstem)
    have himage := hparts.image hstem
    refine ⟨?_, ?_, ?_, ?_, fun other hother hparent => ?_⟩
    · rw [himage.parent?, hparts.parent?]
    · rw [himage.fileStem?, hparts.fileStem?, hparts.image_stem]
    · rw [himage.extension?, FileName.extension?,
        FileName.splitLastDot?_image (FileName.stem_ne_nil hparts.nonempty)]
      rfl
    · rw [himage.same_iff hparts, hparts.extension?, ← FileName.eq_stem_append_iff]
      exact and_iff_right rfl
    · obtain ⟨name', hname'⟩ := Option.ne_none_iff_exists'.mp hother
      obtain ⟨base', tail', hparts'⟩ := Path.exists_parts_of_fileName hname'
      rw [hparts.parent?, hparts'.parent?] at hparent
      rw [hparts.fileStem?, hparts'.fileStem?, Option.some.injEq]
      exact hparts.image_same_iff hparts' hstem (Option.some.inj hparent)
  · obtain ⟨tail, hparts⟩ := Path.exists_parts hsplit
    have htail : source.chars = base ++ name ↔ tail = [] := by
      rw [hparts.chars]
      exact List.append_right_eq_self
    simp only [hparts.image_of_dot hdot, htail]

/-- A source with a doubled slash and a dot at its end, another under the same parent and stem, and
one whose stem is a dot. -/
theorem image_path_laws_at :
    (renderedImagePath (.ofString "a//b.c.puml/.")).parent? = some (.ofString "a") ∧
      (renderedImagePath (.ofString "a//b.c.puml/.")).same
        (renderedImagePath (.ofString "a/./b.c.svg")) = true ∧
      renderedImagePath (renderedImagePath (.ofString "a//b.c.puml/.")) =
        renderedImagePath (.ofString "a//b.c.puml/.") ∧
      renderedImagePath (.ofString "a/..") = .ofString "a/.." ∧
      renderedImagePath (.ofString "a/..b/") = .ofString "a/..png" := by
  obtain ⟨-, -, htwice, hlaws, -⟩ := image_path_laws (.ofString "a//b.c.puml/.")
  obtain ⟨hparent, -, -, -, hshared⟩ := hlaws (by decide) (by decide)
  refine ⟨hparent.trans (by decide), ?_, htwice (by decide), ?_, ?_⟩
  · exact (hshared (.ofString "a/./b.c.svg") (by decide) (by decide)).mpr (by decide)
  · exact (image_path_laws (.ofString "a/..")).2.1 (by decide)
  · exact ((image_path_laws (.ofString "a/..b/")).2.2.2.2 ['a', '/'] ['.', '.', 'b'] (by decide)
      (by decide)).trans (by decide)

/-- The image of `..a` is no image but the parent directory, so it has no stem and no extension, and
`..a/` under the same parent and stem has another one. -/
theorem image_of_dots_is_the_parent :
    (Path.ofString "..a").fileName? ≠ none ∧
      renderedImagePath (.ofString "..a") = .ofString ".." ∧
      (renderedImagePath (.ofString "..a")).fileStem? ≠ (Path.ofString "..a").fileStem? ∧
      (renderedImagePath (.ofString "..a")).extension? ≠ some imageExtension ∧
      (Path.ofString "..a/").parent? = (Path.ofString "..a").parent? ∧
      (Path.ofString "..a/").fileStem? = (Path.ofString "..a").fileStem? ∧
      renderedImagePath (.ofString "..a/") = .ofString "..png" ∧
      renderedImagePath (renderedImagePath (.ofString "..a/")) = .ofString ".." := by
  decide

end DiagramService
