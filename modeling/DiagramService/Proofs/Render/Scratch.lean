import DiagramService.Proofs.Diagram.Files
import DiagramService.Proofs.Disk.Frame
import DiagramService.Render.Rendering

/-! What a rendering does to the disk. It makes directories, and then works below a place of its
own, where nothing was at the start. -/

namespace DiagramService

namespace Scratch

/-! ## Names of scratch directories -/

/-- Six letters or digits. -/
structure Drawn (ending : List Char) : Prop where
  length : ending.length = 6
  chars : ∀ c ∈ ending, c ∈ endingChars

theorem drawn_ending (n : Nat) : Drawn (ending n) := by
  refine ⟨by simp [ending], fun c hc => ?_⟩
  simp only [ending, List.mem_map] at hc
  obtain ⟨i, -, rfl⟩ := hc
  have hlt : n / Nat.pow endingChars.size i % endingChars.size < endingChars.size :=
    Nat.mod_lt _ (by decide)
  rw [Array.getD_eq_getD_getElem?, Array.getElem?_eq_getElem hlt]
  exact Array.getElem_mem hlt

theorem drawn_endingsFrom (n : Nat) : ∀ ending ∈ endingsFrom n, Drawn ending := by
  intro ending h
  obtain ⟨i, -, rfl⟩ := List.mem_map.mp h
  exact drawn_ending (n + i)

section Name

variable {ending : List Char}

theorem plain_name (h : Drawn ending) : ∀ c ∈ scratchStart ++ ending, Plain c := by
  intro c hc
  rcases List.mem_append.mp hc with hc | hc
  · exact plain_of_all (by decide) c hc
  · have hplain : ∀ c ∈ endingChars.toList, Plain c := plain_of_all (by decide)
    exact hplain c (Array.mem_toList_iff.mpr (h.chars c hc))

theorem name_length (h : Drawn ending) : (scratchStart ++ ending).length = 22 := by
  rw [List.length_append, h.length]
  rfl

theorem name_bytes (h : Drawn ending) : Disk.byteLength (scratchStart ++ ending) = 22 := by
  rw [Disk.byteLength_eq_length fun c hc => (plain_name h c hc).size, name_length h]

theorem ordinary_name (h : Drawn ending) : Disk.Ordinary (scratchStart ++ ending) := by
  have hlen := name_length h
  refine ⟨?_, fun hc => (plain_name h _ hc).notSlash rfl, ?_, ?_, ?_⟩
  · intro hnil
    rw [hnil] at hlen
    cases hlen
  · intro hdot
    rw [hdot] at hlen
    cases hlen
  · intro hdots
    rw [hdots] at hlen
    cases hlen
  · rw [name_bytes h]
    decide

/-- The names of scratch directories start differently than those of records. -/
theorem name_ne_savedStart (ending rest : List Char) :
    scratchStart ++ ending ≠ savedStart ++ rest := by
  have hstart : scratchStart = 'u' :: scratchStart.tail := by decide
  intro h
  rw [hstart] at h
  exact absurd (List.cons.inj h).1 (by decide)

theorem name_ne_sourceName (ending : List Char) (id : DiagramId) :
    scratchStart ++ ending ≠ id.sourceName := by
  rw [DiagramId.sourceName, List.append_assoc]
  exact name_ne_savedStart ending _

theorem name_ne_imageName (ending : List Char) (id : DiagramId) :
    scratchStart ++ ending ≠ id.imageName := by
  rw [DiagramId.imageName, List.append_assoc]
  exact name_ne_savedStart ending _

end Name

/-! ## Places of scratch directories -/

/-- A place where only scratch directories can be, as nothing was there at the start. -/
def Scratchy (d₀ : Disk) (q : Place) : Prop :=
  ∃ ending W, Drawn ending ∧ d₀.get? ((scratchStart ++ ending) :: W) = none ∧
    (scratchStart ++ ending) :: W <:+ q

/-- A scratch directory that was made at a place where nothing was. -/
structure Lodged (d₀ : Disk) (scratch : Scratch) (S : Place) : Prop where
  atPath : scratch = .atPath scratch.dir
  ending : Disk.asksDirectory scratch.dir = false
  name : ∃ ending W, Drawn ending ∧ S = (scratchStart ++ ending) :: W
  made : ∃ d₁, Disk.Frame d₀ d₁ ∧ d₁.locate .keep scratch.dir = .ok (.missing S)

section Lodged

variable {d₀ d : Disk} {scratch : Scratch} {S : Place}

theorem Lodged.ne_nil (h : Lodged d₀ scratch S) : S ≠ [] := by
  obtain ⟨ending, W, -, rfl⟩ := h.name
  exact List.cons_ne_nil _ _

theorem Lodged.get_none (h : Lodged d₀ scratch S) : d₀.get? S = none := by
  obtain ⟨d₁, h₁, hl⟩ := h.made
  exact h₁.get_none (Disk.locate_missing_get hl).1

theorem Lodged.scratchy (h : Lodged d₀ scratch S) {q : Place} (hq : S <:+ q) : Scratchy d₀ q := by
  have hnone := h.get_none
  obtain ⟨ending, W, hdrawn, rfl⟩ := h.name
  exact ⟨ending, W, hdrawn, hnone, hq⟩

theorem Lodged.locate (h : Lodged d₀ scratch S) (hd : Disk.Frame d₀ d) {last : Disk.LastLink}
    {t : Disk.Target} (ht : d.locate last scratch.dir = .ok t) : t.place = S := by
  obtain ⟨d₁, h₁, hl⟩ := h.made
  exact h₁.onePlace hd hl ht

theorem Lodged.locate_join (h : Lodged d₀ scratch S) (hd₀ : d₀.WellFormed)
    (hd : Disk.Frame d₀ d) {name : FileName} (hn : Disk.Ordinary name) {last : Disk.LastLink}
    {t : Disk.Target} (ht : d.locate last (scratch.dir.join name) = .ok t) :
    t.place = name :: S := by
  obtain ⟨d₁, h₁, hl⟩ := h.made
  exact h₁.onePlace_join hd₀ hd h.ending hl hn ht

theorem Lodged.source_eq (h : Lodged d₀ scratch S) :
    scratch.files.source = scratch.dir.join scratchSource := by
  rw [h.atPath]
  rfl

theorem Lodged.image_eq (h : Lodged d₀ scratch S) :
    scratch.files.image = scratch.dir.join scratchImage := by
  rw [h.atPath]
  exact renderedImagePath_scratch _

end Lodged

/-! ## Making a scratch directory -/

theorem allocateIn_error {d d' : Disk} {root : Path} {endings : List (List Char)} {e : IoError}
    (h : allocateIn d root endings = (.error e, d')) : d' = d := by
  induction endings with
  | nil => cases h; rfl
  | cons ending endings ih =>
    simp only [allocateIn] at h
    split at h
    · cases h
    · next e' d'' hm =>
      rw [Disk.makeDir_error hm] at h
      split at h
      · exact ih h
      · cases h
        rfl

/-- A scratch directory is made under one of the names that are drawn. -/
theorem allocateIn_made {d d' : Disk} {root : Path} {endings : List (List Char)}
    {scratch : Scratch} (h : allocateIn d root endings = (.ok scratch, d')) :
    ∃ ending ∈ endings, scratch = .atPath (root.join (scratchStart ++ ending)) ∧
      d.makeDir (root.join (scratchStart ++ ending)) = (.ok (), d') := by
  induction endings with
  | nil => cases h
  | cons ending endings ih =>
    simp only [allocateIn] at h
    split at h
    · next hm =>
      cases h
      exact ⟨ending, List.mem_cons_self, rfl, hm⟩
    · next e d'' hm =>
      rw [Disk.makeDir_error hm] at h
      split at h
      · obtain ⟨other, hmem, hscratch, hmake⟩ := ih h
        exact ⟨other, List.mem_cons_of_mem ending hmem, hscratch, hmake⟩
      · cases h

/-- A scratch directory is made where nothing was. -/
theorem allocateIn_ok {d₀ d d' : Disk} (hd : Disk.Frame d₀ d) {root : Path}
    {endings : List (List Char)} (hdrawn : ∀ ending ∈ endings, Drawn ending) {scratch : Scratch}
    (h : allocateIn d root endings = (.ok scratch, d')) :
    ∃ S, Lodged d₀ scratch S ∧ d.get? S = none ∧ d' = d.set S .directory := by
  obtain ⟨ending, hmem, rfl, hmake⟩ := allocateIn_made h
  have hn := ordinary_name (hdrawn ending hmem)
  obtain ⟨W, -, hl, rfl⟩ := Disk.makeDir_join_ok hn hmake
  exact ⟨_, ⟨rfl, Disk.asksDirectory_join root hn, ⟨ending, W, hdrawn ending hmem, rfl⟩, d, hd, hl⟩,
    (Disk.locate_missing_get hl).1, rfl⟩

end Scratch

/-! ## Steps of a rendering -/

namespace Rendering

/-- The scratch directory of a rendering. -/
def scratch? : Phase → Option Scratch
  | .invoke scratch _ => some scratch
  | .close scratch _ => some scratch
  | _ => none

/-- The scratch directory of a rendering was made where nothing was at the start. -/
def Lodged (d₀ : Disk) (phase : Phase) : Prop :=
  ∀ scratch, scratch? phase = some scratch → ∃ S, scratch.Lodged d₀ S

/-- A step changes nothing that was there at the start, and outside of scratch directories it only
makes directories. -/
structure Spares (d₀ d d' : Disk) : Prop where
  frame : Disk.Frame d₀ d'
  get : ∀ q, ¬ Scratch.Scratchy d₀ q →
    d'.get? q = d.get? q ∨ d.get? q = none ∧ d'.get? q = some .directory

section Step

variable {d₀ d d' : Disk} {scratch : Scratch} {S : Place}

theorem Spares.refl (hd : Disk.Frame d₀ d) : Spares d₀ d d :=
  ⟨hd, fun _ _ => .inl rfl⟩

theorem Spares.of_grows (hd : Disk.Frame d₀ d) (h : Disk.Grows d d') : Spares d₀ d d' :=
  ⟨hd.grows h, fun q _ => h.get q⟩

/-- What happens below the place of a scratch directory spares the rest. -/
theorem Spares.of_lodged (hd₀ : d₀.WellFormed) (hd : Disk.Frame d₀ d) (hs : scratch.Lodged d₀ S)
    {free : Place → Prop} (h : Disk.AgreesOff free d d' ∧ Disk.NoNewLinks d d')
    (hfree : ∀ q, free q → S <:+ q) : Spares d₀ d d' :=
  ⟨hd.agreesOff h.1 h.2 fun q hq => hd₀.get_below hs.get_none (hfree q hq),
    fun q hq => .inl (h.1.get q fun hf => hq (hs.scratchy (hfree q hf)))⟩

theorem spares_write (hd₀ : d₀.WellFormed) (hd : Disk.Frame d₀ d) (hs : scratch.Lodged d₀ S)
    (r : Rendering) (now : Int) : Spares d₀ d ((r.invocation scratch).write d now).2 := by
  have hwrite := Disk.writeFile_onePlace (p := scratch.files.source)
    (fun t ht => by
      rw [hs.source_eq] at ht
      exact hs.locate_join hd₀ hd scratchSource_ordinary ht)
    (List.cons_ne_nil _ _) (Utf8.encode r.text) now
  have hsp := Spares.of_lodged hd₀ hd hs hwrite fun q hq => hq ▸ List.suffix_cons _ _
  unfold Invocation.write invocation
  split
  · next h => rw [h] at hsp; exact hsp
  · next h => rw [h] at hsp; exact hsp

theorem spares_clear (hd₀ : d₀.WellFormed) (hd : Disk.Frame d₀ d) (hs : scratch.Lodged d₀ S)
    (r : Rendering) : Spares d₀ d ((r.invocation scratch).clear d).2 := by
  have hremove := Disk.removeFile_onePlace (p := scratch.files.image)
    (fun t ht => by
      rw [hs.image_eq] at ht
      exact hs.locate_join hd₀ hd scratchImage_ordinary ht)
    (List.cons_ne_nil _ _)
  have hsp := Spares.of_lodged hd₀ hd hs hremove fun q hq => hq ▸ List.suffix_cons _ _
  unfold Invocation.clear invocation
  split
  · next h => rw [h] at hsp; exact hsp
  · next h =>
    rw [h] at hsp
    split <;> exact hsp

theorem spares_drop (hd₀ : d₀.WellFormed) (hd : Disk.Frame d₀ d) (hs : scratch.Lodged d₀ S) :
    Spares d₀ d (scratch.drop d) :=
  .of_lodged hd₀ hd hs
    (Disk.removeTree_onePlace (fun _ ht => hs.locate hd ht) hs.ne_nil) fun _ hq => hq

/-- What a step of a rendering leaves as it was. -/
theorem step_spares (hd₀ : d₀.WellFormed) (hd : Disk.Frame d₀ d) (r : Rendering) {phase : Phase}
    (hs : Lodged d₀ phase) {endings : List (List Char)}
    (hdrawn : ∀ ending ∈ endings, Scratch.Drawn ending) (now : Int) :
    Spares d₀ d (r.step phase endings d now).2 ∧ Lodged d₀ (r.step phase endings d now).1 := by
  cases phase with
  | makeRoot =>
    have hgrow := Disk.makeDirs_grows d r.workDir
    simp only [step]
    split
    · next h => rw [h] at hgrow; exact ⟨.of_grows hd hgrow, nofun⟩
    · next h => rw [h] at hgrow; exact ⟨.of_grows hd hgrow, nofun⟩
  | allocate =>
    simp only [step]
    split
    · next scratch d' h =>
      obtain ⟨S, hlodged, hget, rfl⟩ := Scratch.allocateIn_ok hd hdrawn h
      refine ⟨.of_grows hd (Disk.grows_set_directory hget hlodged.ne_nil), fun s hs' => ?_⟩
      cases hs'
      exact ⟨S, hlodged⟩
    · next e d' h =>
      rw [Scratch.allocateIn_error h]
      exact ⟨.refl hd, nofun⟩
  | invoke scratch phase =>
    obtain ⟨S, hlodged⟩ := hs scratch rfl
    have hgo : ∀ p, Lodged d₀ (goOn scratch p) := by
      intro p s hs'
      cases p <;> cases hs' <;> exact ⟨S, hlodged⟩
    refine ⟨?_, hgo _⟩
    cases phase with
    | write => exact spares_write hd₀ hd hlodged r now
    | clear => exact spares_clear hd₀ hd hlodged r
    | _ => exact .refl hd
  | close scratch result =>
    obtain ⟨S, hlodged⟩ := hs scratch rfl
    exact ⟨spares_drop hd₀ hd hlodged, nofun⟩
  | done result => exact ⟨.refl hd, nofun⟩

theorem lodged_hear {phase : Phase} (hs : Lodged d₀ phase) (r : Rendering) (outcome : RunOutcome) :
    Lodged d₀ (r.hear phase outcome) := by
  cases phase with
  | invoke scratch phase =>
    intro s hs'
    refine hs s ?_
    simp only [hear] at hs'
    generalize (r.invocation scratch).hear phase outcome = p at hs'
    cases p <;> exact hs'
  | _ => exact hs

end Step

end Rendering

end DiagramService
