import DiagramService.Proofs.Render.Invocation
import DiagramService.Proofs.Service.Scene
import DiagramService.Proofs.Store.Save

/-! A save and the processes of its renderer. Once the source of a record has been made no directory
stands in its place, and once the renderer is to run none stands in the place of the image, as the
processes only write and remove files. So a save that fails can remove both. -/

namespace DiagramService

/-- No directory stands in the place of a file of a record. -/
def SavedDiagram.Clear (record : SavedDiagram) (d : Disk) : Prop :=
  d.NoDirAt record.source ∧ d.NoDirAt record.image

/-- The two files of a record are gone. -/
def SavedDiagram.Absent (record : SavedDiagram) (d : Disk) : Prop :=
  d.Gone record.source ∧ d.Gone record.image

theorem SavedDiagram.Clear.addsFiles {record : SavedDiagram} {d d' : Disk} (h : record.Clear d)
    (hd : Disk.AddsFiles d d') : record.Clear d' :=
  ⟨h.1.addsFiles hd, h.2.addsFiles hd⟩

namespace Save

/-- A save waits for its invocation while its renderer is to run, and at no other time. -/
theorem running?_eq_some {s : Save} {phase : Phase} {i : Invocation}
    (h : (Task.save s phase).running? = some i) :
    ∃ record, phase = .invoke record .run ∧ i = s.invocation record := by
  cases phase with
  | invoke record inner =>
    cases inner with
    | run =>
      cases h
      exact ⟨record, rfl, rfl⟩
    | _ => cases h
  | _ => cases h

/-- What a save knows of the disk: once its source is made no directory stands there, once the
renderer is to run none stands in the place of the image, and what it has read is still there. -/
inductive Careful (d : Disk) : Phase → Prop
  | makeDir : Careful d .makeDir
  | draw (tries) : Careful d (.draw tries)
  | mark (tries dir id) : Careful d (.mark tries (.inDirectory dir id))
  | claim (tries dir id) : Careful d (.claim tries (.inDirectory dir id))
  | release (tries dir id) : Careful d (.release tries (.inDirectory dir id))
  | invoke (dir id inner) (hinner : inner.result? = none)
    (hsource : d.NoDirAt (SavedDiagram.inDirectory dir id).source)
    (himage : inner = .run ∨ inner = .read →
      d.NoDirAt (SavedDiagram.inDirectory dir id).image) :
    Careful d (.invoke (.inDirectory dir id) inner)
  | relocate (dir id content)
    (himage : d.contentAt (SavedDiagram.inDirectory dir id).image = .ok content) :
    Careful d (.relocate (.inDirectory dir id))
  | discard (record paths error) : Careful d (.discard record paths error)
  | unmark (record record' content) (himage : d.contentAt record'.image = .ok content) :
    Careful d (.unmark record (.ok record'))
  | fail (record error) : Careful d (.unmark record (.error error))
  | done (record content) (himage : d.contentAt record.image = .ok content) :
    Careful d (.done (.ok record))
  | failed (error) : Careful d (.done (.error error))

section Careful

variable {d d' : Disk} {phase : Phase}

/-- While the renderer of a save is at work, the save knows what it knew before. -/
theorem Careful.addsFiles {record : SavedDiagram} (h : Careful d (.invoke record .run))
    (hd : Disk.AddsFiles d d') : Careful d' (.invoke record .run) := by
  cases h with
  | invoke dir id _ hinner hsource himage =>
    exact .invoke dir id .run rfl (hsource.addsFiles hd)
      fun _ => (himage (.inl rfl)).addsFiles hd

theorem Careful.hear {record : SavedDiagram} (h : Careful d (.invoke record .run)) (s : Save)
    (outcome : RunOutcome) : Careful d (s.hear (.invoke record .run) outcome) := by
  cases h with
  | invoke dir id _ hinner hsource himage =>
    simp only [Save.hear, Invocation.hear]
    obtain hread | ⟨error, herror⟩ :=
      (s.invocation (.inDirectory dir id)).afterRun_cases outcome
    · rw [hread]
      exact .invoke dir id .read rfl hsource fun _ => himage (.inl rfl)
    · rw [herror]
      exact .discard _ _ _

/-- The next phase of an invocation whose renderer is not at work. -/
theorem careful_goOn (s : Save) (dir : Path) (id : DiagramId) {inner : Invocation.Phase}
    (hinner : inner.result? = none) (hrun : inner ≠ .run)
    (hsource : d.NoDirAt (SavedDiagram.inDirectory dir id).source) (now : Int) :
    Careful ((s.invocation (.inDirectory dir id)).step inner d now).2
      (goOn (.inDirectory dir id) ((s.invocation (.inDirectory dir id)).step inner d now).1) := by
  have himage : (s.invocation (.inDirectory dir id)).files.image =
      (SavedDiagram.inDirectory dir id).image := invocation_image s dir id
  have hfiles := (s.invocation (.inDirectory dir id)).step_addsFiles inner d now
  cases hnext : ((s.invocation (.inDirectory dir id)).step inner d now).1 with
  | done result =>
    cases result with
    | ok content =>
      obtain ⟨hsame, hdone | hread⟩ := Invocation.step_returns hnext
      · rw [hdone] at hinner
        cases hinner
      · rw [hsame]
        exact .relocate dir id content (himage ▸ hread)
    | error error => exact .discard _ _ _
  | run =>
    exact .invoke dir id .run rfl (hsource.addsFiles hfiles) fun _ =>
      himage ▸ Invocation.step_run hrun hnext
  | read => exact absurd hnext Invocation.step_read
  | write => exact .invoke dir id .write rfl (hsource.addsFiles hfiles) nofun
  | clear => exact .invoke dir id .clear rfl (hsource.addsFiles hfiles) nofun

/-- A save knows the same after a step of its own. -/
theorem Careful.step (h : Careful d phase) (s : Save) (hwait : (Task.save s phase).running? = none)
    (store : Store) (now : Int) :
    Careful (s.step phase store d now).2.2 (s.step phase store d now).1 := by
  cases h with
  | makeDir =>
    simp only [Save.step]
    split
    · exact .draw _
    · exact .failed _
  | draw tries =>
    cases tries with
    | zero => exact .failed _
    | succ tries => exact .mark tries _ _
  | mark tries dir id => exact .claim tries dir id
  | claim tries dir id =>
    simp only [Save.step, Save.claim]
    split
    · next h =>
      exact .invoke dir id .write rfl (Disk.createNew_noDirAt h) (by simp)
    · split
      · exact .release tries dir id
      · exact .fail _ _
  | release tries dir id => exact .draw tries
  | invoke dir id inner hinner hsource himage =>
    exact careful_goOn s dir id hinner (fun hrun => by rw [hrun] at hwait; cases hwait) hsource now
  | relocate dir id content himage =>
    simp only [Save.step, Save.relocate, image_same, if_true]
    exact .unmark _ _ content himage
  | discard record paths error =>
    cases paths with
    | nil => exact .fail _ _
    | cons path paths => exact .discard _ _ _
  | unmark record record' content himage => exact .done record' content himage
  | fail record error => exact .failed error
  | done record content himage => exact .done record content himage
  | failed error => exact .failed error

end Careful

/-- A save that clears up after its renderer: what it has still to remove is no directory, and what
it has removed is gone. -/
inductive Clearing (record : SavedDiagram) (d : Disk) : Phase → Prop
  | invoke (inner) (hinner : inner.result? = none) (hclear : record.Clear d) :
    Clearing record d (.invoke record inner)
  | relocate : Clearing record d (.relocate record)
  | unmark (record') : Clearing record d (.unmark record (.ok record'))
  | done (record') : Clearing record d (.done (.ok record'))
  | discard (paths error) (hclear : record.Clear d)
    (hgone : ∀ path, path = record.source ∨ path = record.image → path ∈ paths ∨ d.Gone path) :
    Clearing record d (.discard record paths error)
  | fail (error) (habsent : record.Absent d) : Clearing record d (.unmark record (.error error))
  | failed (error) (habsent : record.Absent d) : Clearing record d (.done (.error error))

section Clearing

variable {d d' : Disk} {phase : Phase} {dir : Path} {id : DiagramId}

/-- All that a save has made is to be removed. -/
theorem clearing_giveUp (hclear : (SavedDiagram.inDirectory dir id).Clear d) (error : RenderError) :
    Clearing (.inDirectory dir id) d (giveUp (.inDirectory dir id) error) := by
  refine .discard _ error hclear fun path hpath => .inl ?_
  rw [leftovers_inDirectory]
  obtain rfl | rfl := hpath
  · exact List.mem_cons_self
  · exact List.mem_cons_of_mem _ (by simp [SavedDiagram.inDirectory])

theorem clearing_goOn (hclear : (SavedDiagram.inDirectory dir id).Clear d)
    (inner : Invocation.Phase) :
    Clearing (.inDirectory dir id) d (goOn (.inDirectory dir id) inner) := by
  cases inner with
  | done result =>
    cases result with
    | ok content => exact .relocate
    | error error => exact clearing_giveUp hclear error
  | _ => exact .invoke _ rfl hclear

theorem Clearing.addsFiles (h : Clearing (.inDirectory dir id) d
    (.invoke (.inDirectory dir id) .run)) (hd : Disk.AddsFiles d d') :
    Clearing (.inDirectory dir id) d' (.invoke (.inDirectory dir id) .run) := by
  cases h with
  | invoke _ hinner hclear => exact .invoke .run hinner (hclear.addsFiles hd)

theorem Clearing.hear (h : Clearing (.inDirectory dir id) d (.invoke (.inDirectory dir id) .run))
    (s : Save) (outcome : RunOutcome) : Clearing (.inDirectory dir id) d
      (s.hear (.invoke (.inDirectory dir id) .run) outcome) := by
  cases h with
  | invoke _ hinner hclear => exact clearing_goOn hclear _

theorem Clearing.step (h : Clearing (.inDirectory dir id) d phase) (s : Save) (store : Store)
    (now : Int) : Clearing (.inDirectory dir id) (s.step phase store d now).2.2
      (s.step phase store d now).1 := by
  cases h with
  | invoke inner hinner hclear =>
    exact clearing_goOn (hclear.addsFiles (Invocation.step_addsFiles _ inner d now)) _
  | relocate =>
    simp only [Save.step, Save.relocate, image_same, if_true]
    exact .unmark _
  | unmark record' => exact .done record'
  | done record' => exact .done record'
  | discard paths error hclear hgone =>
    cases paths with
    | nil =>
      exact .fail error ⟨(hgone _ (.inl rfl)).resolve_left (List.not_mem_nil),
        (hgone _ (.inr rfl)).resolve_left (List.not_mem_nil)⟩
    | cons path paths =>
      have hshrinks := Disk.removeFile_shrinks d path
      refine .discard paths error (hclear.addsFiles hshrinks.addsFiles) fun other hother => ?_
      obtain hmem | hother' := hgone other hother
      · obtain rfl | hmem := List.mem_cons.mp hmem
        · -- this one has just been removed
          obtain rfl | rfl := hother
          · exact .inr (Disk.removeFile_gone hclear.1)
          · exact .inr (Disk.removeFile_gone hclear.2)
        · exact .inl hmem
      · exact .inr (hother'.shrinks hshrinks)
  | fail error habsent => exact .failed error habsent
  | failed error habsent => exact .failed error habsent

end Clearing

end Save

/-! ## Saves among processes -/

section Save

variable {s : Save}

/-- A phase of a save with a property. -/
def Call.Saves (s : Save) (P : Disk → Save.Phase → Prop) (call : Call) (d : Disk) : Prop :=
  ∃ phase, call = .request (.save s phase) ∧ P d phase

/-- What the steps of a save keep, and a renderer that writes and removes files, holds all along. -/
theorem Scene.Move.saves {P : Disk → Save.Phase → Prop}
    (hstep : ∀ d phase store now, (Task.save s phase).running? = none → P d phase →
      P (s.step phase store d now).2.2 (s.step phase store d now).1)
    (hfiles : ∀ d d' record, Disk.AddsFiles d d' → P d (.invoke record .run) →
      P d' (.invoke record .run))
    (hhear : ∀ d record outcome, P d (.invoke record .run) →
      P d (s.hear (.invoke record .run) outcome))
    {w w' : Scene} (h : Move w w') (hw : w.call.Saves s P w.disk) :
    w'.call.Saves s P w'.disk := by
  obtain ⟨phase, hcall, hP⟩ := hw
  cases h with
  | advance endings now hwait hrun hdraw hcall' hdisk' =>
    rw [hcall] at hwait hcall' hdisk'
    exact ⟨_, hcall', hdisk' ▸ hstep w.disk phase w.store now hwait hP⟩
  | wait i hwait hcall' hcrew htouches =>
    rw [hcall] at hwait
    obtain ⟨record, rfl, rfl⟩ := Save.running?_eq_some hwait
    exact ⟨_, hcall'.trans hcall, hfiles _ _ record htouches.addsFiles hP⟩
  | hear i outcome hwait hrun hcall' hdisk' =>
    rw [hcall] at hwait hcall'
    obtain ⟨record, rfl, rfl⟩ := Save.running?_eq_some hwait
    exact ⟨_, hcall', hdisk' ▸ hhear w.disk record outcome hP⟩

theorem Scene.Move.careful {w w' : Scene} (h : Move w w')
    (hw : w.call.Saves s Save.Careful w.disk) : w'.call.Saves s Save.Careful w'.disk :=
  h.saves (fun _ _ store now hwait hP => hP.step s hwait store now)
    (fun _ _ _ hd hP => hP.addsFiles hd) (fun _ _ outcome hP => hP.hear s outcome) hw

theorem Scene.Move.clearing {dir : Path} {id : DiagramId} {w w' : Scene} (h : Move w w')
    (hw : w.call.Saves s (Save.Clearing (.inDirectory dir id)) w.disk) :
    w'.call.Saves s (Save.Clearing (.inDirectory dir id)) w'.disk := by
  -- the record of the phase in which the renderer runs is the one that is cleared up
  have hrecord : ∀ {d record}, Save.Clearing (.inDirectory dir id) d (.invoke record .run) →
      record = .inDirectory dir id := fun hP => by cases hP; rfl
  refine h.saves (fun _ _ store now _ hP => hP.step s store now) (fun _ _ record hd hP => ?_)
    (fun _ record outcome hP => ?_) hw
  · obtain rfl := hrecord hP
    exact hP.addsFiles hd
  · obtain rfl := hrecord hP
    exact hP.hear s outcome

end Save

end DiagramService
