import DiagramService.Proofs.Diagram.IdSource
import DiagramService.Proofs.Render.Scratch
import DiagramService.Proofs.Service.Schedule
import DiagramService.Proofs.Service.Tended

/-! One store with everything that goes on around it: saves, renderings and listings in any order,
and a new store whenever no save is in progress. -/

namespace DiagramService

/-! ## The service and its steps -/

/-- A save that has been taken up and is not over. -/
def Task.Saving : Task → Prop
  | .save _ phase => ¬ phase.Over
  | _ => False

/-- The requests of one service on a directory. A request gets the store in use, and the service is
started again only while nothing is saved. The clock may do anything below `2 ^ 62`. A renderer
changes nothing but the image path that belongs to its source, and puts a file there or removes what
is there. -/
def Rules.oneStore (dir : Path) : Rules where
  admits w task number := task.Fresh ∧ number + 1 = w.stores.length
  reopens w config := config.saveDir = dir ∧
    ∀ (i : Nat) (e : Errand), w.errands[i]? = some e → ¬ e.task.Saving
  clock now := -2 ^ 63 ≤ now ∧ now < 2 ^ 62
  draws _ endings _ := ∀ ending ∈ endings, Scratch.Drawn ending
  acts task d e := ∀ source, task.waiting? = some source →
    Disk.Alters (renderedImagePath source) d e
  ends _ _ _ _ := True

/-- A save directory as a service leaves it. -/
structure Orderly (d : Disk) (dir : Path) (D : Place) : Prop where
  wellFormed : d.WellFormed
  opens : d.Opens dir D
  /-- A name that is taken for the source of an id is the one that the id has. -/
  canonical : ∀ name id, d.get? (name :: D) ≠ none → Listing.idOf? name = some id →
    name = id.sourceName
  /-- No image is there without its source. -/
  paired : ∀ id : DiagramId, d.get? (id.imageName :: D) ≠ none →
    d.get? (id.sourceName :: D) ≠ none

theorem Rules.oneStore_confined (dir : Path) : (Rules.oneStore dir).Confined :=
  fun _ _ source _ _ hact hwait => (hact source hwait).off

/-! ## What is kept up -/

section Upkeep

variable {d₀ : Disk} {dir : Path} {D : Place}

/-- A request that holds and changes nothing that was there at the start. -/
structure Modest (d₀ : Disk) (D : Place) (task : Task) : Prop where
  fresh : ∀ id, task.held? = some id ∨ task.worksOn? = some id →
    d₀.get? (id.sourceName :: D) = none
  lodged : ∀ r phase, task = .render r phase → Rendering.Lodged d₀ phase

theorem Orderly.image_none (h : Orderly d₀ dir D) {id : DiagramId}
    (hid : d₀.get? (id.sourceName :: D) = none) : d₀.get? (id.imageName :: D) = none := by
  refine Classical.byContradiction fun hne => ?_
  exact h.paired id hne hid

/-- No file of a record is in a scratch directory. -/
theorem Orderly.not_scratchy (h : Orderly d₀ dir D) {name : FileName}
    (hname : ∀ ending, scratchStart ++ ending ≠ name) : ¬ Scratch.Scratchy d₀ (name :: D) := by
  rintro ⟨ending, W, -, hnone, hsuffix⟩
  rcases List.suffix_cons_iff.mp hsuffix with heq | hbelow
  · exact hname ending (List.cons.inj heq).1
  · have hget := h.opens.get h.wellFormed
    rw [h.wellFormed.get_below hnone hbelow] at hget
    cases hget

section Step

variable {e' : Errand} {number : Nat} {work : Work} {store store' : Store} {d d' : Disk}

theorem Modest.of_still {task : Task} (h : task.Still) : Modest d₀ D task := by
  refine ⟨fun id hid => ?_, fun r phase heq => ?_⟩
  · rw [h.held?, h.worksOn?] at hid
    rcases hid with hid | hid <;> cases hid
  · rw [heq] at h
    exact h.elim

theorem Modest.step_save (ho : Orderly d₀ dir D) {s : Save} {phase : Save.Phase}
    (h : Modest d₀ D (.save s phase))
    (hstep : Errand.Step (.oneStore dir) ⟨.save s phase, number, work⟩ store d e' store' d')
    (hd : Disk.Frame d₀ d) (hset : s.Settled store.dir D phase d) :
    Disk.Frame d₀ d' ∧ Modest d₀ D e'.task := by
  have hoff := hstep.agreesOff_save (Rules.oneStore_confined dir) hset
  have hharm := hstep.harmless_save (Rules.oneStore_confined dir) hset
  have hlinks : Disk.NoNewLinks d d' := by
    cases hstep with
    | advance _ _ _ _ _ endings now => exact fun q target => (hset.advance now).get_link
    | act _ _ _ _ _ source _ hwait hact => exact (hact source hwait).noNewLinks
    | _ => exact .refl d
  -- a save does not reach what was there at the start
  have hfresh : ∀ q, phase.Reaches D d q → d₀.get? q = none := by
    rintro q ⟨id, ⟨rfl, hid | hnone⟩ | ⟨rfl, hid⟩⟩
    · exact h.fresh id (.inl hid)
    · exact hd.get_none hnone
    · exact ho.image_none (h.fresh id (.inr hid))
  refine ⟨hd.agreesOff hoff hlinks hfresh, fun id hid => ?_, fun r phase heq => ?_⟩
  · rcases hid with hid | hid
    · rcases hharm.held with heq | heq | ⟨id', heq, hnone⟩ <;> rw [heq] at hid
      · exact h.fresh id (.inl hid)
      · cases hid
      · cases hid
        exact hd.get_none hnone
    · rcases hharm.worksOn with heq | heq | ⟨id', heq, hnone⟩ <;> rw [heq] at hid
      · exact h.fresh id (.inr hid)
      · cases hid
      · cases hid
        exact hd.get_none hnone
  · cases hstep <;> cases heq

theorem Modest.step_render (ho : Orderly d₀ dir D) {r : Rendering} {phase : Rendering.Phase}
    (h : Modest d₀ D (.render r phase))
    (hstep : Errand.Step (.oneStore dir) ⟨.render r phase, number, work⟩ store d e' store' d')
    (hd : Disk.Frame d₀ d) : Rendering.Spares d₀ d d' ∧ Modest d₀ D e'.task := by
  have hlodged := h.lodged r phase rfl
  have hmodest : ∀ phase', Rendering.Lodged d₀ phase' → Modest d₀ D (.render r phase') := by
    intro phase' hl
    refine ⟨fun id hid => ?_, fun r' p heq => ?_⟩
    · rcases hid with hid | hid <;> cases hid
    · cases heq
      exact hl
  cases hstep with
  | advance _ _ _ _ _ endings now _ _ hdraw =>
    obtain ⟨hsp, hl⟩ := Rendering.step_spares ho.wellFormed hd r hlodged hdraw now
    exact ⟨hsp, hmodest _ hl⟩
  | begin => exact ⟨.refl hd, h⟩
  | act _ _ _ _ _ source _ hwait hact =>
    refine ⟨?_, h⟩
    cases phase with
    | invoke scratch phase =>
      cases phase with
      | run =>
        cases hwait
        obtain ⟨S, hs⟩ := hlodged scratch rfl
        refine .of_lodged ho.wellFormed hd hs
          ⟨(hact _ rfl).off, (hact _ rfl).noNewLinks⟩ ?_
        rintro q ⟨t, ht, rfl⟩
        rw [hs.source_eq, renderedImagePath_scratch] at ht
        rw [hs.locate_join ho.wellFormed hd scratchImage_ordinary ht]
        exact List.suffix_cons _ _
      | _ => cases hwait
    | _ => cases hwait
  | finish _ _ _ _ _ source outcome =>
    exact ⟨.refl hd, hmodest _ (Rendering.lodged_hear hlodged r outcome)⟩

end Step

/-- What is kept up around one store: all that was there at the start is there. -/
def Upkeep.oneStore (ho : Orderly d₀ dir D) : Upkeep (.oneStore dir) D where
  path p := p = dir
  disk := Disk.Frame d₀
  task := Modest d₀ D
  confined := Rules.oneStore_confined dir
  opens := by
    rintro p d rfl hd
    exact hd.opens ho.opens
  admits := by
    rintro w t number ⟨hfresh, hnumber⟩
    refine ⟨hfresh, by omega, fun id hid => ?_, fun r phase heq => ?_⟩
    · rw [hfresh.held?, hfresh.worksOn?] at hid
      rcases hid with hid | hid <;> cases hid
    · subst heq
      cases phase with
      | makeRoot => nofun
      | _ => exact hfresh.elim
  reopens _ hopen := hopen.1
  step := by
    rintro ⟨task, number, work⟩ store d e' store' d' hstep hd htask hset
    cases task with
    | save s phase => exact htask.step_save ho hstep hd hset
    | render r phase =>
      obtain ⟨hsp, hmodest⟩ := htask.step_render ho hstep hd
      exact ⟨hsp.frame, hmodest⟩
    | list phase =>
      obtain ⟨rfl, -, -, hstill⟩ := hstep.still trivial
      exact ⟨hd, .of_still hstill⟩
    | answered response =>
      obtain ⟨rfl, -, -, hstill⟩ := hstep.still trivial
      exact ⟨hd, .of_still hstill⟩
  render := by
    rintro r phase number work store d e' store' d' hstep hd htask
    obtain ⟨hsp, -⟩ := htask.step_render ho hstep hd
    obtain ⟨-, hnumber, phase', heq⟩ := hstep.render
    refine ⟨hnumber, fun id x _ hget => ?_, fun id _ => ?_, .inr (.inl ?_), .inr (.inl ?_)⟩
    · rcases hsp.get _ (ho.not_scratchy fun _ => Scratch.name_ne_sourceName _ id) with h | ⟨h, -⟩
      · rw [h, hget]
      · rw [hget] at h
        cases h
    · exact hsp.get _ (ho.not_scratchy fun _ => Scratch.name_ne_imageName _ id)
    · rw [heq]
      rfl
    · rw [heq]
      rfl

end Upkeep

end DiagramService
