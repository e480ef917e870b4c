import Mathlib
import DiagramService.Proofs.Disk.Frame
import DiagramService.Proofs.Service.SaveAnswer

/-! What was on the disk before a save is there after it, however the save ends. Only an image that
was there without its source does not count: it is removed before the renderer runs, so that it does
not pass for the one that the renderer should have made. -/

namespace DiagramService

open Disk

/-- A renderer changes nothing but the image path of its source. -/
def Renderer.Confined (renderer : Renderer) : Prop :=
  ∀ source d, AgreesOff (d.At (renderedImagePath source)) d (renderer source d).2

theorem Renderer.Tidy.confined {renderer : Renderer} (h : renderer.Tidy) : renderer.Confined :=
  fun source d => (h source d).off

/-! ## What remains -/

/-- A disk has what another had, except for a stray image of a record. The path of the directory
leads to its place or nowhere: it may have gone through the image. -/
structure Remains (d : Disk) (dir : Path) (D : Place) (id : DiagramId) (e : Disk) : Prop where
  keeps : ∀ q x, d.get? q = some x →
    e.get? q = some x ∨ q = id.imageName :: D ∧ x ≠ .directory
  tied : ∀ P, e.Opens dir P → P = D

section Remains

variable {d e : Disk} {dir : Path} {D : Place} {id : DiagramId}

/-- All is there before the renderer runs, but for an image that was removed. -/
theorem Remains.prepared (hopens : d.Opens dir D) (hget : d.get? (id.sourceName :: D) = none)
    (hoff : AgreesOff (PlaceOf D id) d e) {content : Bytes} {time : Int}
    (hsource : e.get? (id.sourceName :: D) = some (.file content time))
    (himage : e.get? (id.imageName :: D) = none ∧ d.get? (id.imageName :: D) ≠ some .directory ∨
      e.get? (id.imageName :: D) = some .directory ∧
        d.get? (id.imageName :: D) = some .directory) : Remains d dir D id e := by
  refine ⟨fun q x hq => ?_, fun P hP => ?_⟩
  · by_cases hplace : PlaceOf D id q
    · rcases hplace with rfl | rfl
      · rw [hget] at hq
        cases hq
      · rw [hq] at himage
        rcases himage with ⟨-, hx⟩ | ⟨he, hx⟩
        · exact .inr ⟨rfl, fun h => hx (congrArg some h)⟩
        · exact .inl (he.trans hx.symm)
    · exact .inl ((hoff.get q hplace).trans hq)
  · -- the disk with nothing but the source in addition has all that there is
    refine (hP.mono (e := d.set (id.sourceName :: D) (.file content time)) hoff.working.symm
      fun q x hq => ?_).unique (opens_set_source hopens hget content time)
    by_cases hplace : PlaceOf D id q
    · rcases hplace with rfl | rfl
      · rw [get?_set_self d (List.cons_ne_nil _ _), ← hsource, hq]
      · rw [get?_set_of_ne d (Save.source_ne_image D id id).symm]
        rcases himage with ⟨he, -⟩ | ⟨he, hx⟩
        · rw [he] at hq
          cases hq
        · rw [hx, ← he, hq]
    · rw [get?_set_of_ne d fun heq => hplace (.inl heq), ← hoff.get q hplace, hq]

/-- A file that was not there before, or a stray image, can be removed. -/
theorem Remains.erase (h : Remains d dir D id e) {name : FileName} {x : Entry}
    (hget : e.get? (name :: D) = some x) (hx : x ≠ .directory)
    (hname : d.get? (name :: D) = none ∨ name = id.imageName) :
    Remains d dir D id (e.erase (name :: D)) := by
  refine ⟨fun q y hq => ?_, fun P hP => ?_⟩
  · by_cases hqn : q = name :: D
    · subst hqn
      rcases hname with hnone | rfl
      · rw [hnone] at hq
        cases hq
      · rcases h.keeps _ y hq with heq | hstray
        · rw [hget] at heq
          cases heq
          exact .inr ⟨rfl, hx⟩
        · exact .inr hstray
    · rw [get?_erase_of_ne e hqn]
      exact h.keeps q y hq
  · -- what leads somewhere without the file leads there with it
    refine h.tied P (hP.mono rfl fun q y hq => ?_)
    by_cases hqn : q = name :: D
    · rw [hqn, get?_erase_self e (List.cons_ne_nil _ _)] at hq
      cases hq
    · rwa [get?_erase_of_ne e hqn] at hq

theorem Remains.removeFile (h : Remains d dir D id e) {name : FileName} (hn : Ordinary name)
    (hname : d.get? (name :: D) = none ∨ name = id.imageName) :
    Remains d dir D id (e.removeFile (dir.join name)).2 := by
  cases hl : e.locate .keep (dir.join name) with
  | error x => simpa [Disk.removeFile, find, hl, Disk.fail] using h
  | ok t =>
    obtain ⟨P, hP⟩ := opens_of_locate_join hn hl
    obtain rfl := h.tied P hP
    rw [hP.removeFile hn (spelled_of_locate hl)]
    cases hget : e.get? (name :: P) with
    | none => exact h
    | some x =>
      cases x with
      | directory => exact h
      | _ => exact h.erase hget (fun heq => by cases heq) hname

/-- A renderer that keeps to its image path changes nothing else. -/
theorem Remains.render {renderer : Renderer} (hconfined : renderer.Confined)
    (h : Remains d dir D id e) (hget : e.get? (id.imageName :: D) = none) :
    Remains d dir D id (renderer (dir.join id.sourceName) e).2 := by
  have hoff := hconfined (dir.join id.sourceName) e
  rw [renderedImagePath_record] at hoff
  generalize (renderer (dir.join id.sourceName) e).2 = e' at hoff ⊢
  have hplace : AgreesOff (fun q => e.Opens dir D ∧ q = id.imageName :: D) e e' := by
    refine hoff.mono fun q hq => ?_
    obtain ⟨P, hP, rfl⟩ := At.join id.imageName_ordinary hq
    obtain rfl := h.tied P hP
    exact ⟨hP, rfl⟩
  refine ⟨fun q x hq => ?_, fun P hP => ?_⟩
  · rcases h.keeps q x hq with hx | hstray
    · refine .inl ((hplace.get q ?_).trans hx)
      rintro ⟨-, rfl⟩
      rw [hget] at hx
      cases hx
    · exact .inr hstray
  · by_cases hopens : e.Opens dir D
    · -- nothing was at the place of the image, so the directory is still there
      refine hP.unique (hopens.mono hoff.working fun q x hq => ?_)
      refine (hplace.get q ?_).trans hq
      rintro ⟨-, rfl⟩
      rw [hget] at hq
      cases hq
    · exact h.tied P (hP.mono hoff.working.symm fun q x hq =>
        (hplace.get q fun hq' => hopens hq'.1).symm.trans hq)

end Remains

/-! ## A save from its claim to its end -/

section Perform

variable {d : Disk} {dir : Path} {D : Place} {id : DiagramId} {renderer : Renderer}

theorem render_remains (hconfined : renderer.Confined) (s : Save) (hopens : d.Opens dir D)
    (hs : Spelled (dir.join id.sourceName)) (hget : d.get? (id.sourceName :: D) = none)
    (time now : Int) : Remains d dir D id (s.render renderer (.inDirectory dir id)
      (d.set (id.sourceName :: D) (.file [] time)) now).2 := by
  obtain ⟨phase, e, hprepare, hoff, hsource, hphase⟩ := prepare_claimed s hopens hs hget time now
  rw [render_eq]
  rcases hphase with ⟨rfl, himage⟩ | ⟨rfl, himage⟩
  · rw [(Invocation.perform_of_prepare hprepare renderer).1]
    exact (Remains.prepared hopens hget hoff hsource (.inl himage)).render hconfined himage.1
  · have hremains := Remains.prepared hopens hget hoff hsource (.inr himage)
    simpa [Invocation.perform, hprepare, Invocation.run, Invocation.failed] using hremains

/-- What a save that fails removes was not there before, or is a stray image. -/
theorem discard_remains {e : Disk} (h : Remains d dir D id e)
    (hget : d.get? (id.sourceName :: D) = none) :
    Remains d dir D id (Save.removeAll e (Save.leftovers (.inDirectory dir id))) := by
  rw [Save.leftovers_inDirectory]
  have hsource := h.removeFile id.sourceName_ordinary (.inl hget)
  have himage := hsource.removeFile id.imageName_ordinary (.inr rfl)
  exact himage.removeFile id.imageName_ordinary (.inr rfl)

end Perform

/-- Whatever was on the disk before a save is there after it, whether the save is successful or not.
The one thing that may be lost is an image, or another entry that is no directory, which had the
name of the image of the record that the save has claimed, while its source was missing. -/
theorem save_keeps_entries (s : Save) (renderer : Renderer) (hconfined : renderer.Confined)
    (store : Store) (d : Disk) (clock : Nat → Int) (q : Place) (x : Entry)
    (hq : d.get? q = some x) :
    (s.perform renderer store d clock).2.2.get? q = some x ∨
    ∃ record D, Save.claimed? store d clock = some record ∧
      (d.makeDirs store.dir).2.Opens store.dir D ∧
      d.get? (record.id.sourceName :: D) = none ∧
      q = record.id.imageName :: D ∧ x ≠ .directory := by
  have hgrows := makeDirs_grows d store.dir
  unfold Save.claimed? Save.perform
  rcases hmade : d.makeDirs store.dir with ⟨made, d₁⟩
  rw [hmade] at hgrows
  have hq₁ : d₁.get? q = some x := hgrows.get_of_some hq
  cases made with
  | error e => exact .inl hq₁
  | ok =>
    obtain ⟨D, hopens⟩ := opens_of_makeDirs hmade
    have hclaiming := claimWithin_claiming hopens maxClaims clock
    simp only
    generalize Save.claimWithin maxClaims store d₁ clock = claimed at hclaiming ⊢
    obtain ⟨result, store₁, d₂⟩ := claimed
    simp only at hclaiming ⊢
    cases hclaiming with
    | failed e => exact .inl hq₁
    | claimed id _ _ time _ _ hs hget hset =>
      -- what is missing now was missing before the directory was made
      have hget₀ : d.get? (id.sourceName :: D) = none := by
        cases hold : d.get? (id.sourceName :: D) with
        | none => rfl
        | some y =>
          rw [hgrows.get_of_some hold] at hget
          cases hget
      subst hset
      have hremains := render_remains hconfined s hopens hs hget time (clock maxClaims)
      have hlost : q = id.imageName :: D ∧ x ≠ .directory → ∃ record E,
          (Except.ok (SavedDiagram.inDirectory store.dir id) : Except IoError _).toOption =
            some record ∧ d₁.Opens store.dir E ∧ d.get? (record.id.sourceName :: E) = none ∧
          q = record.id.imageName :: E ∧ x ≠ .directory := fun h =>
        ⟨.inDirectory store.dir id, D, rfl, hopens, hget₀, h⟩
      simp only
      generalize s.render renderer (.inDirectory store.dir id) _ (clock maxClaims) = rendered
        at hremains ⊢
      obtain ⟨rendered, d₃⟩ := rendered
      cases rendered with
      | ok => exact (hremains.keeps q x hq₁).imp_right hlost
      | error error => exact ((discard_remains hremains hget).keeps q x hq₁).imp_right hlost

/-! ## Stray images -/

/-- The shelf with two images that belong to no source. -/
def strayShelf : Disk :=
  (emptyShelf.set ["diagram_4.png".toList, "saved".toList] (.file [4] 0)).set
    ["diagram_5.png".toList, "saved".toList] (.file [7] 0)

/-- What becomes of the shelf when a text is saved at one time. -/
def strayed (code : Int) : Except RenderError SavedDiagram × Store × Disk :=
  Save.perform ⟨.standard, "a"⟩ (scribbler code) (.open_ ⟨"saved".toList⟩) strayShelf fun _ => 5

theorem strayShelf_claims : Save.claimed? (.open_ ⟨"saved".toList⟩) strayShelf (fun _ => 5) =
    some (.inDirectory ⟨"saved".toList⟩ ⟨5⟩) := by cbv

/-- The image of an id that the save does not claim is kept, with and without success. -/
theorem strayShelf_keeps_entries :
    (strayed 0).2.2.get? ["diagram_4.png".toList, "saved".toList] = some (.file [4] 0) ∧
    (strayed 1).2.2.get? ["diagram_4.png".toList, "saved".toList] = some (.file [4] 0) := by
  have hget : strayShelf.get? ["diagram_4.png".toList, "saved".toList] = some (.file [4] 0) := by
    cbv
  have hother : ∀ record D, Save.claimed? (.open_ ⟨"saved".toList⟩) strayShelf (fun _ => 5) =
      some record → ["diagram_4.png".toList, "saved".toList] ≠ record.id.imageName :: D := by
    intro record D h heq
    rw [strayShelf_claims] at h
    cases h
    exact absurd (List.cons.inj heq).1 (by decide)
  have hkept : ∀ code, (strayed code).2.2.get? ["diagram_4.png".toList, "saved".toList] =
      some (.file [4] 0) := by
    intro code
    have hkeeps := save_keeps_entries ⟨.standard, "a"⟩ (scribbler code)
      (scribbler_tidy code).confined (.open_ ⟨"saved".toList⟩) strayShelf (fun _ => 5) _ _ hget
    rcases hkeeps with h | ⟨record, D, h, -, -, heq, -⟩
    · exact h
    · exact absurd heq (hother record D h)
  exact ⟨hkept 0, hkept 1⟩

/-- The image of the id that the save claims is another one after a success, and is gone after a
failure. -/
theorem stray_image_can_be_lost :
    (scribbler 0).Confined ∧ (scribbler 1).Confined ∧
    strayShelf.get? ["diagram_5.png".toList, "saved".toList] = some (.file [7] 0) ∧
    (strayed 0).1.toOption.isSome ∧
    (strayed 0).2.2.get? ["diagram_5.png".toList, "saved".toList] = some (.file [1] 5) ∧
    (strayed 1).1.toOption.isNone ∧
    (strayed 1).2.2.get? ["diagram_5.png".toList, "saved".toList] = none :=
  ⟨(scribbler_tidy 0).confined, (scribbler_tidy 1).confined, by cbv, by cbv, by cbv, by cbv, by cbv⟩

end DiagramService
