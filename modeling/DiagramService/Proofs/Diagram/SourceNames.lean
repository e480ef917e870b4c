import Mathlib
import DiagramService.Proofs.Diagram.Files

/-! The names that are taken for sources. Two dots matter in such a name: the number ends at the
first one, and the extension begins at the last one. So an id has many names, of which the one that
the store makes is the shortest but for signs and zeros. -/

namespace DiagramService

/-! ## Cutting a name at a dot -/

/-- The extension of a name is what stands after its last dot. -/
theorem FileName.extension?_eq_some_iff {name ext : List Char} (hstart : name.head? ≠ some '.')
    (hext : '.' ∉ ext) : extension? name = some ext ↔ ∃ stem, name = stem ++ '.' :: ext := by
  constructor
  · intro h
    obtain ⟨⟨stem, _⟩, hsplit, rfl⟩ := Option.map_eq_some_iff.mp h
    exact ⟨stem, (splitLastDot?_eq_some_iff.mp hsplit).1⟩
  · rintro ⟨stem, rfl⟩
    have hne : stem ≠ [] := by
      rintro rfl
      exact hstart rfl
    have hstart' : stem.head? ≠ some '.' := fun h => hstart (by rw [List.head?_append, h]; rfl)
    rw [extension?, splitLastDot?_stem stem ext hne hstart' hext]
    rfl

namespace DiagramId

theorem afterStart?_eq_some_iff {name rest : List Char} :
    afterStart? name = some rest ↔ name = savedStart ++ rest := by
  unfold afterStart?
  constructor
  · intro h
    split at h
    · next hstart =>
      obtain ⟨after, rfl⟩ := List.isPrefixOf_iff_prefix.mp hstart
      cases h
      rw [List.drop_left]
    · cases h
  · rintro rfl
    rw [if_pos (List.isPrefixOf_iff_prefix.mpr (List.prefix_append _ _)), List.drop_left]

theorem takeWhile_before {ds : List Char} (hds : '.' ∉ ds) (rest : List Char) :
    (ds ++ '.' :: rest).takeWhile (· != '.') = ds := by
  have hkept : ∀ c ∈ ds, (c != '.') = true := fun c hc => by
    simpa using fun hdot : c = '.' => hds (hdot ▸ hc)
  simp [List.takeWhile_append_of_pos hkept]

theorem upToDot?_eq_some_iff {cs ds : List Char} :
    upToDot? cs = some ds ↔ '.' ∉ ds ∧ ∃ rest, cs = ds ++ '.' :: rest := by
  unfold upToDot?
  constructor
  · intro h
    split at h
    · next hdot =>
      obtain rfl := Option.some.inj h
      obtain ⟨before, rest, rfl, hbefore⟩ := List.eq_append_cons_of_mem hdot
      rw [takeWhile_before hbefore]
      exact ⟨hbefore, rest, rfl⟩
    · cases h
  · rintro ⟨hds, rest, rfl⟩
    rw [if_pos (by simp), takeWhile_before hds]

/-- The id in a file name is the number between the fixed start and the first dot. -/
theorem ofFileName?_eq_some_iff {name : FileName} {id : DiagramId} :
    ofFileName? name = some id ↔ ∃ number rest, name = savedStart ++ number ++ '.' :: rest ∧
      '.' ∉ number ∧ Text.Numeral number id.value.toInt := by
  have hnumber : ∀ number, (Text.signedWord? number).map mk = some id ↔
      Text.Numeral number id.value.toInt := by
    intro number
    rw [← Text.signedWord?_eq_some_iff, Option.map_eq_some_iff]
    exact ⟨fun ⟨_, h, heq⟩ => heq ▸ h, fun h => ⟨_, h, rfl⟩⟩
  simp only [ofFileName?, Option.bind_eq_some_iff, afterStart?_eq_some_iff, upToDot?_eq_some_iff,
    hnumber]
  constructor
  · rintro ⟨number, ⟨_, rfl, hdot, rest, rfl⟩, hnumeral⟩
    exact ⟨number, rest, by simp, hdot, hnumeral⟩
  · rintro ⟨number, rest, rfl, hdot, hnumeral⟩
    exact ⟨number, ⟨number ++ '.' :: rest, by simp, hdot, rest, rfl⟩, hnumeral⟩

end DiagramId

/-! ## Names of sources -/

/-- A name of the source of an id: it starts as saved names do, up to the first dot it spells the
id, and its extension after the last dot is that of sources. `stem` is what stands before that. -/
structure Spells (name : FileName) (id : DiagramId) (stem : List Char) : Prop where
  number : ∃ number rest, name = savedStart ++ number ++ '.' :: rest ∧ '.' ∉ number ∧
    Text.Numeral number id.value.toInt
  extension : name = stem ++ '.' :: sourceExtension

/-- A listing takes a name for a source if it is one, and for that of no other id. -/
theorem Listing.idOf?_eq_some_iff {name : FileName} {id : DiagramId} :
    idOf? name = some id ↔ ∃ stem, Spells name id stem := by
  have hstart : ∀ number rest : List Char,
      (savedStart ++ number ++ '.' :: rest).head? ≠ some '.' := by
    intro number rest
    simp [savedStart]
  unfold idOf?
  constructor
  · intro h
    split at h
    · next hext =>
      obtain ⟨number, rest, rfl, hdot, hnumeral⟩ := DiagramId.ofFileName?_eq_some_iff.mp h
      obtain ⟨stem, hstem⟩ :=
        (FileName.extension?_eq_some_iff (hstart number rest) (by decide)).mp hext
      exact ⟨stem, ⟨number, rest, rfl, hdot, hnumeral⟩, hstem⟩
    · cases h
  · rintro ⟨stem, ⟨number, rest, hname, hnumber⟩, hstem⟩
    have hext : FileName.extension? name = some sourceExtension :=
      (FileName.extension?_eq_some_iff (hname ▸ hstart number rest) (by decide)).mpr ⟨stem, hstem⟩
    rw [if_pos hext]
    exact DiagramId.ofFileName?_eq_some_iff.mpr ⟨number, rest, hname, hnumber⟩

namespace Spells

variable {name : FileName} {id : DiagramId} {stem : List Char}

theorem head?_stem (h : Spells name id stem) : stem.head? = some 'd' := by
  obtain ⟨⟨number, rest, hname, -⟩, hstem⟩ := h
  have hhead := congrArg List.head? (hstem.symm.trans hname)
  cases stem with
  | nil => exact absurd hhead (by simp [savedStart])
  | cons c cs => exact hhead

/-- The image that belongs to a source has its name with the last extension replaced. -/
theorem renderedImagePath (h : Spells name id stem) (hslash : '/' ∉ name) (dir : Path) :
    renderedImagePath (dir.join name) = dir.join (stem ++ '.' :: imageExtension) := by
  have hhead := h.head?_stem
  have hne : stem ≠ [] := by
    rintro rfl
    cases hhead
  rw [h.extension] at hslash ⊢
  exact Path.withExtension_join dir stem sourceExtension imageExtension hne (by simp [hhead])
    (fun hmem => hslash (List.mem_append_left _ hmem)) (by decide) (by decide)

end Spells

/-! ## Names and ids -/

namespace DiagramId

/-- Each id is told by the names of its two files, which no other id has, and the names that tell an
id are those that spell it in decimal between the fixed start and the first dot. -/
theorem names_and_ids_correspond :
    (∀ id : DiagramId, ofFileName? id.sourceName = some id ∧ ofFileName? id.imageName = some id) ∧
    (∀ id id' : DiagramId, id ≠ id' → id.sourceName ≠ id'.sourceName ∧
      id.imageName ≠ id'.imageName ∧ id.sourceName ≠ id'.imageName) ∧
    ∀ (name : FileName) (value : Int),
      (∃ id, ofFileName? name = some id ∧ id.value.toInt = value) ↔
        -2 ^ 63 ≤ value ∧ value ≤ 2 ^ 63 - 1 ∧
        ∃ (sign : Text.Sign) (digits rest : List Char),
          name = "diagram_".toList ++ sign.mark ++ digits ++ '.' :: rest ∧
          digits ≠ [] ∧ (∀ c ∈ digits, c.isDigit) ∧
          value = sign.apply (Text.placeValue digits) := by
  refine ⟨fun id => ⟨id.ofFileName?_sourceName, id.ofFileName?_imageName⟩,
    fun id id' hne => ⟨mt sourceName_injective hne, mt imageName_injective hne,
      sourceName_ne_imageName id id'⟩, fun name value => ⟨?_, ?_⟩⟩
  · rintro ⟨id, hid, rfl⟩
    obtain ⟨number, rest, rfl, -, hnumber⟩ := ofFileName?_eq_some_iff.mp hid
    obtain ⟨sign, digits, rfl, hne, hdigits, hvalue⟩ := Text.numeral_iff.mp hnumber
    exact ⟨id.value.le_toInt, Int.le_sub_one_of_lt id.value.toInt_lt, sign, digits, rest,
      by simp [savedStart], hne, hdigits, hvalue⟩
  · rintro ⟨hlow, hhigh, sign, digits, rest, rfl, hne, hdigits, hvalue⟩
    have hword : (Int64.ofInt value).toInt = value :=
      Int64.toInt_ofInt_of_le hlow (Int.lt_of_le_sub_one hhigh)
    have hnumber : Text.Numeral (sign.mark ++ digits) (Int64.ofInt value).toInt :=
      Text.numeral_iff.mpr ⟨sign, digits, rfl, hne, hdigits, hword.trans hvalue⟩
    refine ⟨⟨Int64.ofInt value⟩, ofFileName?_eq_some_iff.mpr ?_, hword⟩
    exact ⟨sign.mark ++ digits, rest, by simp [savedStart], hnumber.dot_not_mem, hnumber⟩

end DiagramId

end DiagramService
