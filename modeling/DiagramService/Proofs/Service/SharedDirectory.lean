import Mathlib
import DiagramService.Proofs.Service.Schedule
import DiagramService.Proofs.Service.Tended

/-! Several stores on one directory. Exclusive creation of the sources keeps the records of all of
them apart. The image of a record is as safe as its source from when no other save is still busy
with the same id; a save that has failed removes its source before its image, and in between its id
can be claimed again. -/

namespace DiagramService

/-! ## The stores and their steps -/

/-- Saves and listings of any number of stores, whose renderers change nothing but the image path
that belongs to their source. Each store may be opened again at any time. -/
def Rules.shared : Rules where
  admits w task number := task.Fresh ∧ (∀ r phase, task ≠ .render r phase) ∧
    number < w.stores.length
  reopens w config := ∃ store ∈ w.stores, config.saveDir = store.dir
  clock _ := True
  draws _ _ _ := True
  acts task d e := ∀ source, task.waiting? = some source →
    Disk.AgreesOff (d.At (renderedImagePath source)) d e
  ends _ _ _ _ := True

theorem Rules.shared_confined : Rules.shared.Confined :=
  fun _ _ source _ _ hact hwait => hact source hwait

/-- The places that may change in a directory of records: those where nothing was, and the images.
-/
def Loose (d : Disk) (D : Place) (q : Place) : Prop :=
  d.get? q = none ∨ ∃ id : DiagramId, q = id.imageName :: D

/-- A path leads to a directory whatever becomes of the images in it. -/
def Steady (d : Disk) (D : Place) (dir : Path) : Prop :=
  ∀ e, Disk.AgreesOff (Loose d D) d e → e.Opens dir D

section Upkeep

variable {d₀ : Disk} {D : Place}

/-- A source that is missing now was missing at the start. -/
theorem get_none_of_loose {d : Disk} (h : Disk.AgreesOff (Loose d₀ D) d₀ d) {id : DiagramId}
    (hget : d.get? (id.sourceName :: D) = none) : d₀.get? (id.sourceName :: D) = none := by
  refine Classical.byContradiction fun hne => ?_
  have hloose : ¬ Loose d₀ D (id.sourceName :: D) := by
    rintro (hnone | ⟨id', heq⟩)
    · exact hne hnone
    · exact Save.source_ne_image D id id' heq
  rw [← h.get _ hloose] at hne
  exact hne hget

/-- A request that only saves or lists, and holds no id whose source was there at the start. -/
structure Sharing (d₀ : Disk) (D : Place) (task : Task) : Prop where
  noRender : ∀ r phase, task ≠ .render r phase
  fresh : ∀ id, task.held? = some id → d₀.get? (id.sourceName :: D) = none

/-- A step of one request changes only what may change. -/
theorem Sharing.step {e e' : Errand} {store store' : Store} {d d' : Disk}
    (h : Sharing d₀ D e.task) (hstep : Errand.Step .shared e store d e' store' d')
    (hd : Disk.AgreesOff (Loose d₀ D) d₀ d) (hset : e.task.Settled store.dir D d) :
    Disk.AgreesOff (Loose d₀ D) d₀ d' ∧ Sharing d₀ D e'.task := by
  have hstill : e.task.Still → Disk.AgreesOff (Loose d₀ D) d₀ d' ∧ Sharing d₀ D e'.task := by
    intro hstill
    obtain ⟨rfl, -, -, hstill'⟩ := hstep.still hstill
    refine ⟨hd, fun r phase heq => ?_, fun id hid => ?_⟩
    · rw [heq] at hstill'
      exact hstill'
    · rw [hstill'.held?] at hid
      cases hid
  obtain ⟨task, number, work⟩ := e
  cases task with
  | save s phase =>
    have hharm := hstep.harmless_save Rules.shared_confined hset
    refine ⟨hd.trans ((hstep.agreesOff_save Rules.shared_confined hset).mono ?_), ?_, ?_⟩
    · -- what a save reaches is a source that was not there at the start, or an image
      rintro q ⟨id, ⟨rfl, hid | hnone⟩ | ⟨rfl, -⟩⟩
      · exact .inl (h.fresh _ hid)
      · exact .inl (get_none_of_loose hd hnone)
      · exact .inr ⟨id, rfl⟩
    · cases hstep <;> nofun
    · intro id hid
      rcases hharm.held with heq | heq | ⟨id', heq, hnone⟩ <;> rw [heq] at hid
      · exact h.fresh id hid
      · cases hid
      · cases hid
        exact get_none_of_loose hd hnone
  | render r phase => exact absurd rfl (h.noRender r phase)
  | list phase => exact hstill trivial
  | answered response => exact hstill trivial

/-- What is kept up among stores that share a directory. `d₀` is the disk at the start. -/
def Upkeep.shared (d₀ : Disk) (D : Place) : Upkeep .shared D where
  path := Steady d₀ D
  disk := Disk.AgreesOff (Loose d₀ D) d₀
  task := Sharing d₀ D
  confined := Rules.shared_confined
  opens hp hd := hp _ hd
  admits := by
    rintro w t number ⟨hfresh, hrender, hnumber⟩
    refine ⟨hfresh, hnumber, hrender, fun id hid => ?_⟩
    rw [hfresh.held?] at hid
    cases hid
  reopens := by
    rintro w config hpaths ⟨store, hstore, hdir⟩
    rw [hdir]
    exact hpaths store hstore
  step hstep hd htask hset := htask.step hstep hd hset
  render _ _ htask := absurd rfl (htask.noRender _ _)

end Upkeep

/-! ## Records of several stores -/

/-- A turn of saves and nothing else. -/
def Turn.ofSaves : Turn → Bool
  | .accept (.save _ .makeDir) _ => true
  | .accept _ _ => false
  | .go _ _ => true

theorem Rules.shared_permits {w w' : World} {turn : Turn} (h : w.turn? turn = some w')
    (hsave : turn.ofSaves) : Rules.shared.Permits w turn := by
  cases turn with
  | accept task number =>
    simp only [World.turn?] at h
    split at h
    · next hnumber =>
      unfold Turn.ofSaves at hsave
      split at hsave
      · next heq =>
        cases heq
        exact ⟨trivial, (fun _ _ h => by cases h), hnumber⟩
      · cases hsave
      · next heq => cases heq
    · cases h
  | go i move =>
    cases move with
    | advance endings now => exact ⟨trivial, fun _ _ => trivial⟩
    | begin => exact trivial
    | leave x =>
      intro e source _ hwait source' hwait'
      rw [hwait] at hwait'
      cases hwait'
      exact Disk.agreesOff_leave _ _ x
    | finish outcome => exact fun _ _ _ _ => trivial

/-- A relative path of one name keeps leading to its directory. -/
theorem steady_name {d : Disk} {name : FileName} (hn : Disk.Ordinary name) (hd : d.working = [])
    (hget : d.get? [name] = some .directory) : Steady d [name] ⟨name⟩ := by
  intro e he
  have htight : ¬ Loose d [name] [name] := by
    rintro (hnone | ⟨id, heq⟩)
    · rw [hget] at hnone
      cases hnone
    · cases heq
  exact Disk.opens_name hn (he.working.trans hd) ((he.get _ htight).trans hget)

/-- The first save is about to write its text, and the second has not begun. -/
def begun (w : World) : Bool :=
  match w.errands with
  | [Errand.mk (.save _ (.invoke _ .write)) _ _, Errand.mk (.save _ .makeDir) _ _] => true
  | _ => false

/-- The first save was successful. -/
def finished (w : World) : Bool :=
  match w.errands[0]? with
  | some (Errand.mk (.save _ (.done (.ok _))) _ _) => true
  | _ => false

/-- Tells that the image of the second save is lost. -/
def lost (w w' : World) : Bool :=
  match w.errands[1]? with
  | some (Errand.mk (.save _ (.done (.ok r))) _ _) =>
    match w.disk.contentAt r.image, w'.disk.contentAt r.image with
    | .ok _, .error (.system 2) => true
    | _, _ => false
  | _ => false

end DiagramService
