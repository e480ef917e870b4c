import DiagramService.Proofs.Disk.Leads
import DiagramService.Proofs.Text.Decimal
import DiagramService.Render.Scratch
import DiagramService.Store.Listing

/-! The names of the files of a diagram. Every id has a source and an image of its own, and the
image that belongs to a source is the one of the same record. -/

namespace DiagramService

/-! ## The image that belongs to a source -/

section Image

variable {name : FileName}

theorem Path.dropVoid_of_name (hne : name ≠ []) (hslash : '/' ∉ name) (hdot : name ≠ ['.'])
    (rest : List Char) : dropVoid (name.reverse ++ rest) = name.reverse ++ rest := by
  have hrev : name = name.reverse.reverse := name.reverse_reverse.symm
  cases h : name.reverse with
  | nil => exact absurd (by rw [hrev, h]; rfl) hne
  | cons c cs =>
    have hmem : ∀ b ∈ c :: cs, b ≠ '/' := fun b hb hb' =>
      hslash (List.mem_reverse.mp (h ▸ hb' ▸ hb))
    have hc : c ≠ '/' := hmem c List.mem_cons_self
    cases cs with
    | nil =>
      have hc' : c ≠ '.' := fun hc' => hdot (by rw [hrev, h, hc']; rfl)
      simp [dropVoid, hc, hc']
    | cons b bs =>
      have hb : b ≠ '/' := hmem b (by simp)
      simp [dropVoid, hc, hb]

/-- The file name of an entry of a directory is its name. -/
theorem Path.split?_base {base : List Char} (hbase : base = [] ∨ base.getLast? = some '/')
    (hne : name ≠ []) (hslash : '/' ∉ name) (hdot : name ≠ ['.']) (hdots : name ≠ ['.', '.']) :
    split? ⟨base ++ name⟩ = some (base, name) := by
  have hmem : ∀ b ∈ name.reverse, (b != '/') = true := fun b hb => by
    simpa using fun hb' : b = '/' => hslash (List.mem_reverse.mp (hb' ▸ hb))
  have hstop : base.reverse.takeWhile (· != '/') = [] ∧
      base.reverse.dropWhile (· != '/') = base.reverse := by
    rcases hbase with rfl | hlast
    · exact ⟨rfl, rfl⟩
    · obtain ⟨cs, rfl⟩ := List.getLast?_eq_some_iff.mp hlast
      simp
  simp only [split?, List.reverse_append, dropVoid_of_name hne hslash hdot,
    List.takeWhile_append_of_pos hmem, List.dropWhile_append_of_pos hmem, hstop,
    List.append_nil, List.reverse_reverse]
  simp [hne, hdot, hdots]

theorem Path.fileName?_join (p : Path) (hn : Disk.Ordinary name) :
    (p.join name).fileName? = some name := by
  obtain ⟨base, hjoin, hbase⟩ := Disk.join_eq p
  rw [hjoin, fileName?, split?_base hbase hn.nonempty hn.noSlash hn.notDot hn.notDots]
  rfl

/-- A name is cut at its last dot, which is not at the start of the name. -/
theorem FileName.splitLastDot?_eq_some_iff {before ext : List Char} :
    splitLastDot? name = some (before, ext) ↔
      name = before ++ '.' :: ext ∧ before ≠ [] ∧ '.' ∉ ext ∧ name ≠ ['.', '.'] := by
  constructor
  · intro h
    unfold splitLastDot? at h
    split at h
    · cases h
    · next hdots =>
      have hcut := List.takeWhile_append_dropWhile (p := (· != '.')) (l := name.reverse)
      have hext : '.' ∉ name.reverse.takeWhile (· != '.') := fun hmem =>
        absurd (List.all_eq_true.mp List.all_takeWhile _ hmem) (by decide)
      simp only at h
      split at h
      · next rest hrest =>
        split at h
        · cases h
        · next hbefore =>
          cases h
          rw [hrest] at hcut
          exact ⟨by simpa using (congrArg List.reverse hcut).symm, by simpa using hbefore,
            mt List.mem_reverse.mp hext, by simpa using hdots⟩
      · cases h
  · rintro ⟨rfl, hne, hext, hdots⟩
    have hmem : ∀ b ∈ ext.reverse, (b != '.') = true := fun b hb => by
      simpa using fun hb' : b = '.' => hext (List.mem_reverse.mp (hb' ▸ hb))
    have hrev : (before ++ '.' :: ext).reverse = ext.reverse ++ '.' :: before.reverse := by simp
    simp only [splitLastDot?, hrev, List.takeWhile_append_of_pos hmem,
      List.dropWhile_append_of_pos hmem]
    simp [hdots, hne]

/-- What stands after the last dot of a name that starts with another character. -/
theorem FileName.splitLastDot?_stem (stem ext : List Char) (hne : stem ≠ [])
    (hdot : stem.head? ≠ some '.') (hext : '.' ∉ ext) :
    splitLastDot? (stem ++ '.' :: ext) = some (stem, ext) := by
  obtain ⟨c, cs, rfl⟩ := List.exists_cons_of_ne_nil hne
  refine splitLastDot?_eq_some_iff.mpr ⟨rfl, hne, hext, fun hdots => hdot ?_⟩
  exact congrArg some (List.cons.inj hdots).1

/-- The name with its extension replaced. The old extension is cut first, and a name such as `..a`
then stands for the parent directory. -/
def FileName.withExtension (name : FileName) (ext : List Char) : FileName :=
  if stem name = ['.'] then ['.', '.'] else stem name ++ '.' :: ext

/-- The extension of a path is replaced in its name. -/
theorem Path.withExtension_name (p : Path) (hne : name ≠ []) (hslash : '/' ∉ name)
    (hdot : name ≠ ['.']) (hdots : name ≠ ['.', '.']) (ext : List Char) :
    (p.join name).withExtension ext = p.join (name.withExtension ext) := by
  obtain ⟨base, hjoin, hbase⟩ := Disk.join_eq p
  have hname := split?_base hbase hne hslash hdot hdots
  rw [hjoin, hjoin, withExtension, FileName.withExtension, FileName.stem]
  cases hsplit : FileName.splitLastDot? name with
  | none =>
    have hcut : cutExtension ⟨base ++ name⟩ = ⟨base ++ name⟩ := by
      simp [cutExtension, extension?, fileName?, hname, FileName.extension?, hsplit]
    rw [hcut, setExtension, hname]
    simp [FileName.stem, hsplit, hdot]
  | some cut =>
    obtain ⟨before, old⟩ := cut
    obtain ⟨rfl, hbefore, -, -⟩ := FileName.splitLastDot?_eq_some_iff.mp hsplit
    have hcut : cutExtension ⟨base ++ (before ++ '.' :: old)⟩ = ⟨base ++ (before ++ ['.'])⟩ := by
      have hold : extension? ⟨base ++ (before ++ '.' :: old)⟩ = some old := by
        simp [extension?, fileName?, hname, FileName.extension?, hsplit]
      have hchars : base ++ (before ++ '.' :: old) = base ++ (before ++ ['.']) ++ old := by simp
      rw [cutExtension, hold]
      simp only [hchars, List.length_append, Nat.add_sub_cancel]
      rw [← List.length_append, ← List.length_append, List.take_left]
    rw [hcut, setExtension]
    by_cases hparent : before = ['.']
    · -- what is left has no name whose extension could be set
      have hnone : split? ⟨base ++ ['.', '.']⟩ = none := by
        rcases hbase with rfl | hlast
        · decide
        · obtain ⟨cs, rfl⟩ := List.getLast?_eq_some_iff.mp hlast
          simp [split?, dropVoid]
      simp [hparent, hnone]
    · have hrest : split? ⟨base ++ (before ++ ['.'])⟩ = some (base, before ++ ['.']) := by
        refine split?_base hbase (by simp) (fun hmem => hslash ?_) ?_ ?_
        · exact List.mem_append_left _ (by simpa using hmem : '/' ∈ before)
        · simpa using hbefore
        · exact fun h => hparent (List.append_inj' h rfl).1
      have hstem : FileName.splitLastDot? (before ++ ['.']) = some (before, []) :=
        FileName.splitLastDot?_eq_some_iff.mpr ⟨rfl, hbefore, nofun,
          fun h => hparent (List.append_inj' h rfl).1⟩
      simp [hrest, FileName.stem, hstem, hparent]

theorem Path.withExtension_join (p : Path) (stem old ext : List Char) (hne : stem ≠ [])
    (hdot : stem.head? ≠ some '.') (hslash : '/' ∉ stem) (holddot : '.' ∉ old)
    (holdslash : '/' ∉ old) :
    (p.join (stem ++ '.' :: old)).withExtension ext = p.join (stem ++ '.' :: ext) := by
  have hsplit := FileName.splitLastDot?_stem stem old hne hdot holddot
  obtain ⟨-, -, -, hdots⟩ := FileName.splitLastDot?_eq_some_iff.mp hsplit
  have hstem : FileName.stem (stem ++ '.' :: old) = stem := by simp [FileName.stem, hsplit]
  have hparent : stem ≠ ['.'] := by
    rintro rfl
    exact hdot rfl
  have hsingle : stem ++ '.' :: old ≠ ['.'] := by
    obtain ⟨c, cs, rfl⟩ := List.exists_cons_of_ne_nil hne
    simp
  rw [withExtension_name p (by simp) (by simp [hslash, holdslash]) hsingle hdots,
    FileName.withExtension, hstem, if_neg hparent]

end Image

/-! ## Names of records -/

/-- A character that takes one byte and means nothing in a path. -/
structure Plain (c : Char) : Prop where
  notDot : c ≠ '.'
  notSlash : c ≠ '/'
  notZero : c ≠ '\x00'
  size : c.utf8Size = 1

theorem Plain.of_isDigit {c : Char} (h : c.isDigit) : Plain c := by
  have hrange : 48 ≤ c.val.toNat ∧ c.val.toNat ≤ 57 := by
    simpa [Char.isDigit, UInt32.le_iff_toNat_le] using h
  refine ⟨?_, ?_, ?_, ?_⟩
  · rintro rfl; exact absurd hrange.1 (by decide)
  · rintro rfl; exact absurd hrange.1 (by decide)
  · rintro rfl; exact absurd hrange.1 (by decide)
  · have hle : c.val ≤ 0x7f := UInt32.le_iff_toNat_le.mpr (Nat.le_trans hrange.2 (by decide))
    simp [Char.utf8Size, hle]

theorem plain_of_all {cs : List Char}
    (h : cs.all (fun c => c != '.' && c != '/' && c != '\x00' && c.utf8Size == 1) = true) :
    ∀ c ∈ cs, Plain c := by
  intro c hc
  have hplain := List.all_eq_true.mp h c hc
  simp only [Bool.and_eq_true, bne_iff_ne, beq_iff_eq] at hplain
  obtain ⟨⟨⟨hdot, hslash⟩, hzero⟩, hsize⟩ := hplain
  exact ⟨hdot, hslash, hzero, hsize⟩

namespace DiagramId

/-- The names of both files up to the dot. -/
def stem (id : DiagramId) : List Char :=
  savedStart ++ id.text

theorem plain_of_mem_stem {id : DiagramId} {c : Char} (h : c ∈ id.stem) : Plain c := by
  rcases List.mem_append.mp h with h | h
  · exact plain_of_all (by decide) c h
  · rcases Text.mem_ofInt h with h | rfl
    · exact .of_isDigit h
    · exact ⟨by decide, by decide, by decide, by decide⟩

theorem stem_ne_nil (id : DiagramId) : id.stem ≠ [] := by
  simp [stem, savedStart]

theorem head?_stem (id : DiagramId) : id.stem.head? ≠ some '.' := by
  simp [stem, savedStart]

theorem slash_not_mem_stem (id : DiagramId) : '/' ∉ id.stem :=
  fun h => (plain_of_mem_stem h).notSlash rfl

/-- A name that the id spells is the stem, a dot and an extension. -/
theorem ordinary_stem (id : DiagramId) (ext : List Char)
    (h : ∀ c ∈ ext, Plain c) (hlen : ext.length ≤ 4) :
    Disk.Ordinary (id.stem ++ '.' :: ext) ∧
      Disk.byteLength (id.stem ++ '.' :: ext) = id.stem.length + 1 + ext.length := by
  have hsize : ∀ c ∈ id.stem ++ '.' :: ext, c.utf8Size = 1 := by
    intro c hc
    rcases List.mem_append.mp hc with hc | hc
    · exact (plain_of_mem_stem hc).size
    · rcases List.mem_cons.mp hc with rfl | hc
      · decide
      · exact (h c hc).size
  have hbytes : Disk.byteLength (id.stem ++ '.' :: ext) = id.stem.length + 1 + ext.length := by
    rw [Disk.byteLength_eq_length hsize, List.length_append, List.length_cons]
    omega
  have hstem : id.stem.length ≤ 28 := by
    have htext : id.text.length ≤ 20 := Text.ofInt_length_le id.value
    simp only [stem, savedStart, List.length_append, List.length_cons, List.length_nil]
    omega
  refine ⟨⟨by simp, ?_, by simp [stem, savedStart], by simp [stem, savedStart], ?_⟩, hbytes⟩
  · intro hc
    rcases List.mem_append.mp hc with hc | hc
    · exact id.slash_not_mem_stem hc
    · rcases List.mem_cons.mp hc with hc | hc
      · exact absurd hc (by decide)
      · exact (h _ hc).notSlash rfl
  · rw [hbytes, Disk.maxNameBytes]
    omega

theorem sourceName_ordinary (id : DiagramId) : Disk.Ordinary id.sourceName :=
  (id.ordinary_stem sourceExtension (plain_of_all (by decide)) (by decide)).1

theorem imageName_ordinary (id : DiagramId) : Disk.Ordinary id.imageName :=
  (id.ordinary_stem imageExtension (plain_of_all (by decide)) (by decide)).1

/-- The image of a record can be looked up if its source can. -/
theorem spelled_imageName {id : DiagramId} {p : Path} (h : Disk.Spelled (p.join id.sourceName)) :
    Disk.Spelled (p.join id.imageName) := by
  refine h.join_of_le id.imageName_ordinary ?_ ?_
  · intro hc
    rcases List.mem_append.mp hc with hc | hc
    · exact (plain_of_mem_stem hc).notZero rfl
    · exact absurd hc (by decide)
  · have himage := (id.ordinary_stem imageExtension (plain_of_all (by decide)) (by decide)).2
    have hsource := (id.ordinary_stem sourceExtension (plain_of_all (by decide)) (by decide)).2
    show Disk.byteLength (id.stem ++ '.' :: imageExtension) ≤
      Disk.byteLength (id.stem ++ '.' :: sourceExtension)
    rw [himage, hsource]
    exact Nat.add_le_add_left (by decide) _

/-- The name of a file tells the id that spells it. -/
theorem ofFileName?_stem (id : DiagramId) (ext : List Char) :
    ofFileName? (id.stem ++ '.' :: ext) = some id := by
  have hstart : afterStart? (id.stem ++ '.' :: ext) = some (id.text ++ '.' :: ext) := by
    simp [afterStart?, stem, List.append_assoc, List.isPrefixOf_iff_prefix]
  have htext : ∀ c ∈ id.text, (c != '.') = true := fun c hc => by
    simpa using (plain_of_mem_stem (List.mem_append_right savedStart hc)).notDot
  have hdot : upToDot? (id.text ++ '.' :: ext) = some id.text := by
    simp [upToDot?, List.takeWhile_append_of_pos htext]
  rw [ofFileName?, hstart, Option.bind_some, hdot, Option.bind_some, text,
    Text.signedWord?_ofInt, Option.map_some]

theorem ofFileName?_sourceName (id : DiagramId) : ofFileName? id.sourceName = some id :=
  id.ofFileName?_stem sourceExtension

theorem ofFileName?_imageName (id : DiagramId) : ofFileName? id.imageName = some id :=
  id.ofFileName?_stem imageExtension

theorem sourceName_injective {id id' : DiagramId} (h : id.sourceName = id'.sourceName) :
    id = id' := by
  have hid := id.ofFileName?_sourceName
  rw [h, id'.ofFileName?_sourceName] at hid
  exact (Option.some.inj hid).symm

theorem imageName_injective {id id' : DiagramId} (h : id.imageName = id'.imageName) :
    id = id' := by
  have hid := id.ofFileName?_imageName
  rw [h, id'.ofFileName?_imageName] at hid
  exact (Option.some.inj hid).symm

/-- No source has the name of an image. -/
theorem sourceName_ne_imageName (id id' : DiagramId) : id.sourceName ≠ id'.imageName := by
  intro h
  have hlast := congrArg List.getLast? h
  simp [sourceName, imageName, sourceExtension, imageExtension] at hlast

/-- A listing takes the source of an id for that. -/
theorem idOf?_sourceName (id : DiagramId) : Listing.idOf? id.sourceName = some id := by
  have hext : FileName.extension? (id.stem ++ '.' :: sourceExtension) = some sourceExtension := by
    simp [FileName.extension?, FileName.splitLastDot?_stem id.stem sourceExtension id.stem_ne_nil
      id.head?_stem (by decide)]
  have hname : id.sourceName = id.stem ++ '.' :: sourceExtension := rfl
  rw [Listing.idOf?, hname, hext, if_pos rfl, ofFileName?_stem]

end DiagramId

/-! ## Records and scratch files -/

/-- The renderer writes the image of a record where the record has it. -/
theorem renderedImagePath_record (dir : Path) (id : DiagramId) :
    renderedImagePath (dir.join id.sourceName) = dir.join id.imageName :=
  Path.withExtension_join dir id.stem sourceExtension imageExtension id.stem_ne_nil
    id.head?_stem id.slash_not_mem_stem (by decide) (by decide)

/-- The name of the image in a scratch directory. -/
def scratchImage : FileName := "diagram.png".toList

theorem scratchSource_ordinary : Disk.Ordinary scratchSource :=
  ⟨by decide, by decide, by decide, by decide, by decide⟩

theorem scratchImage_ordinary : Disk.Ordinary scratchImage :=
  ⟨by decide, by decide, by decide, by decide, by decide⟩

theorem renderedImagePath_scratch (dir : Path) :
    renderedImagePath (dir.join scratchSource) = dir.join scratchImage :=
  Path.withExtension_join dir "diagram".toList sourceExtension imageExtension (by decide)
    (by decide) (by decide) (by decide) (by decide)

end DiagramService
