import DiagramService.Proofs.Service.Drawn

/-! The images of the records of one store: a save that is successful has in its image what its
renderer left there, because no other request gets at that image. -/

namespace DiagramService

/-! ## One image -/

/-- The place of an image has no link. -/
def Bare (d : Disk) (q : Place) : Prop :=
  d.get? q = none ∨ d.get? q = some .directory ∨
    ∃ content time, d.get? q = some (.file content time)

/-- What the image of a save is like while its renderer runs and after that. -/
def Pictured (D : Place) (phase : Save.Phase) (work : Work) (d : Disk) : Prop :=
  match phase with
  | .invoke record .run => Bare d (record.id.imageName :: D)
  | .invoke record .read => Bare d (record.id.imageName :: D) ∧
    ∀ content time, d.get? (record.id.imageName :: D) = some (.file content time) →
      work = .over (some content)
  | .relocate record | .unmark record (.ok _) | .done (.ok record) =>
    ∃ content time, d.get? (record.id.imageName :: D) = some (.file content time) ∧
      work = .over (some content)
  | _ => True

section Pictured

variable {dir : Path} {D : Place} {s : Save} {phase : Save.Phase} {number : Nat} {work : Work}
  {store store' : Store} {d d' : Disk} {e' : Errand}

/-- The renderer puts no link there. -/
theorem Bare.acts {record : SavedDiagram} (h : Bare d (record.id.imageName :: D))
    (hact : (Rules.oneStore dir).acts (.save s (.invoke record .run)) d d') :
    Bare d' (record.id.imageName :: D) := by
  have halters := hact _ rfl
  have hsame : d'.get? (record.id.imageName :: D) = d.get? (record.id.imageName :: D) →
      Bare d' (record.id.imageName :: D) := fun heq => by rwa [Bare, heq]
  by_cases hat : d.At (renderedImagePath record.source) (record.id.imageName :: D)
  · rcases halters.left _ hat with heq | hnone | hfile
    · exact hsame heq
    · exact .inl hnone
    · exact .inr (.inr hfile)
  · exact hsame (halters.off.get _ hat)

theorem pictured_giveUp (D : Place) (record : SavedDiagram) (error : RenderError) (work : Work)
    (d : Disk) : Pictured D (Save.giveUp record error) work d :=
  trivial

/-- An image that can be read and is no link is a file. -/
theorem Bare.file {id : DiagramId} (h : Bare d (id.imageName :: D)) (hopens : d.Opens dir D)
    {content : Bytes} (hread : d.contentAt (dir.join id.imageName) = .ok content) :
    ∃ time, d.get? (id.imageName :: D) = some (.file content time) := by
  have hn := id.imageName_ordinary
  have hs := Disk.spelled_of_contentAt hn hread
  rcases h with hget | hget | ⟨content', time, hget⟩
  · rw [hopens.contentAt_missing hn hs hget] at hread
    cases hread
  · rw [hopens.contentAt_directory hn hs hget] at hread
    cases hread
  · rw [hopens.contentAt_file hn hs hget] at hread
    cases hread
    exact ⟨time, hget⟩

theorem Pictured.advance (h : Pictured D phase work d) {now : Int} {phase' : Save.Phase}
    (hopens : d.Opens dir D) (hproper : phase.Proper dir)
    (hadv : Save.Advance s dir D now phase store d phase' store' d') :
    Pictured D phase' work d' := by
  cases hadv with
  | clear _ _ id => exact .inl (Disk.get?_erase_self d (List.cons_ne_nil _ _))
  | clean _ _ id hget => exact .inl hget
  | read _ _ id content hread =>
    obtain ⟨hbare, hwork⟩ := h
    obtain ⟨time, hget⟩ := hbare.file hopens hread
    exact ⟨content, time, hget, hwork content time hget⟩
  | relocate => exact h
  | unmark _ _ id result =>
    cases result with
    | ok record' =>
      obtain ⟨-, -, rfl⟩ := hproper
      exact h
    | error error => exact trivial
  | running => exact h
  | done => exact h
  | _ => exact trivial

/-- A step of the save itself. -/
theorem Pictured.own (h : Pictured D phase work d) (hset : s.Settled store.dir D phase d)
    (hstep : Errand.Step (.oneStore dir) ⟨.save s phase, number, work⟩ store d e' store' d') :
    ∃ phase', e'.task = .save s phase' ∧ Pictured D phase' e'.work d' := by
  cases hstep with
  | advance _ _ _ _ _ endings now =>
    exact ⟨_, rfl, h.advance hset.opens hset.proper (hset.advance now)⟩
  | begin _ _ _ _ source hwait =>
    obtain ⟨record, rfl, rfl⟩ := Save.eq_run_of_waiting? hwait
    exact ⟨_, rfl, h⟩
  | act _ _ given _ _ source _ hwait hact =>
    obtain ⟨record, rfl, rfl⟩ := Save.eq_run_of_waiting? hwait
    exact ⟨_, rfl, Bare.acts h hact⟩
  | finish _ _ given _ _ source outcome hwait =>
    obtain ⟨record, rfl, rfl⟩ := Save.eq_run_of_waiting? hwait
    refine ⟨_, rfl, ?_⟩
    rcases Save.hear_run s record outcome with heq | ⟨error, heq⟩ <;> rw [heq]
    · refine ⟨h, fun content time hget => ?_⟩
      have hrecord := hset.proper.1
      have hread : d.contentAt (renderedImagePath record.source) = .ok content := by
        have hs := hset.proper.2.1
        rw [hrecord] at hs ⊢
        rw [SavedDiagram.inDirectory, renderedImagePath_record]
        exact hset.opens.contentAt_file record.id.imageName_ordinary
          (DiagramId.spelled_imageName hs) hget
      rw [hread]
      rfl
    · exact pictured_giveUp D record error _ d

/-- A step of a request that does not work on the id. -/
theorem Pictured.other (h : Pictured D phase work d) {f f' : Errand}
    (halone : ∀ id, phase.keeps? = some id → f.task.worksOn? ≠ some id)
    (hharm : f.Harmless D d f' d') : Pictured D phase work d' := by
  have hbare : ∀ id, phase.keeps? = some id → Bare d (id.imageName :: D) →
      Bare d' (id.imageName :: D) := by
    intro id hid hb
    rcases hharm.image id (halone id hid) with heq | ⟨-, hdir⟩
    · unfold Bare
      rw [heq]
      exact hb
    · exact .inr (.inl hdir)
  have hfile : ∀ id, phase.keeps? = some id →
      (∃ content time, d.get? (id.imageName :: D) = some (.file content time) ∧
        work = .over (some content)) →
      ∃ content time, d'.get? (id.imageName :: D) = some (.file content time) ∧
        work = .over (some content) := by
    rintro id hid ⟨content, time, hget, hwork⟩
    exact ⟨content, time, hharm.image_some (halone id hid) hget, hwork⟩
  cases phase with
  | invoke record phase =>
    cases phase with
    | run => exact hbare record.id rfl h
    | read =>
      refine ⟨hbare record.id rfl h.1, fun content time hget => ?_⟩
      rcases hharm.image record.id (halone record.id rfl) with heq | ⟨-, hdir⟩
      · exact h.2 content time (heq.symm.trans hget)
      · rw [hdir] at hget
        cases hget
    | _ => exact trivial
  | relocate record => exact hfile record.id rfl h
  | unmark record result =>
    cases result with
    | ok record' => exact hfile record.id rfl h
    | error error => exact trivial
  | done result =>
    cases result with
    | ok record => exact hfile record.id rfl h
    | error error => exact trivial
  | _ => exact trivial

end Pictured

/-! ## All images -/

/-- Every save has the image that it should have by now, and from its claim on it is the only one
that works on its id. -/
structure Cared (D : Place) (w : World) : Prop where
  pictured : ∀ (i : Nat) (e : Errand) (s : Save) (phase : Save.Phase), w.errands[i]? = some e →
    e.task = .save s phase → Pictured D phase e.work w.disk
  tended : ∀ (i : Nat) (e : Errand) (s : Save) (phase : Save.Phase), w.errands[i]? = some e →
    e.task = .save s phase → phase.Claimed → Tended D i phase w

section Cared

variable {d₀ : Disk} {dir : Path} {D : Place} {ho : Orderly d₀ dir D} {n : Nat} {w w' : World}

theorem Cared.start (stores : List Store) (d : Disk) : Cared D ⟨stores, d, []⟩ :=
  ⟨fun i e s phase he => by simp at he, fun i e s phase he => by simp at he⟩

theorem Cared.alone (h : Cared D w) {i : Nat} {e : Errand} {s : Save} {phase : Save.Phase}
    (he : w.errands[i]? = some e) (htask : e.task = .save s phase) {id : DiagramId}
    (hid : phase.keeps? = some id) : w.Alone i id := by
  have hclaimed : phase.Claimed := by
    cases phase <;> first | exact trivial | cases hid
  exact (h.tended i e s phase he htask hclaimed).alone id hid

theorem Errand.Step.of_save {R : Rules} {e e' : Errand} {store store' : Store} {d d' : Disk}
    (h : Errand.Step R e store d e' store' d') {s : Save} {phase' : Save.Phase}
    (htask : e'.task = .save s phase') : ∃ phase, e.task = .save s phase := by
  obtain ⟨task, number, work⟩ := e
  cases task with
  | save s' phase => cases h <;> cases htask <;> exact ⟨_, rfl⟩
  | _ => cases h <;> cases htask

/-- A save that has just claimed an id is the only one that works on it. -/
theorem Tended.claims {i : Nat} {e e' : Errand} {s : Save} {phase phase' : Save.Phase}
    {store store' : Store} {d d' : Disk} (hissued : Issued n w') (he' : w'.errands[i]? = some e')
    (htask : e.task = .save s phase) (htask' : e'.task = .save s phase')
    (hstep : Errand.Step (.oneStore dir) e store d e' store' d')
    (hset : e.task.Settled store.dir D d) (hc : ¬ phase.Claimed) (hc' : phase'.Claimed) :
    Tended D i phase' w' := by
  obtain ⟨task, number, work⟩ := e
  cases htask
  cases hstep with
  | advance _ _ _ _ _ endings now =>
    cases htask'
    rcases (Save.Settled.advance hset now).claims hc hc' with
      ⟨tries, id, -, heq⟩ | ⟨hkeeps, himaged⟩
    · rw [heq]
      exact ⟨trivial, fun id' hid => hissued.alone he'
        ((congrArg Save.Phase.drawn? heq).trans hid), nofun⟩
    · refine ⟨hc', fun id hid => ?_, fun id hid => ?_⟩
      · rw [hkeeps] at hid
        cases hid
      · rw [himaged] at hid
        cases hid
  | begin _ _ _ _ source hwait =>
    obtain ⟨record, rfl, rfl⟩ := Save.eq_run_of_waiting? hwait
    exact absurd trivial hc
  | act _ _ _ _ _ source _ hwait =>
    obtain ⟨record, rfl, rfl⟩ := Save.eq_run_of_waiting? hwait
    exact absurd trivial hc
  | finish _ _ _ _ _ source outcome hwait =>
    obtain ⟨record, rfl, rfl⟩ := Save.eq_run_of_waiting? hwait
    exact absurd trivial hc

/-- A save that has claimed its id stays tended. -/
theorem Cared.kept (h : Cared D w) (hup : (Upkeep.oneStore ho).Holds w)
    (hstep : World.Step (.oneStore dir) w w') {i : Nat} {e e' : Errand} {s : Save}
    {phase phase' : Save.Phase} (he : w.errands[i]? = some e) (htask : e.task = .save s phase)
    (hc : phase.Claimed) (he' : w'.errands[i]? = some e') (htask' : e'.task = .save s phase') :
    Tended D i phase' w' := by
  obtain ⟨e₁, phase₁, he₁, htask₁, -, ht⟩ :=
    hup.tended hstep he htask (h.tended i e s phase he htask hc)
  rw [he'] at he₁
  cases he₁
  rw [htask'] at htask₁
  cases htask₁
  exact ht

/-- A save that is fresh has not got anywhere. -/
theorem Task.Fresh.makeDir {task : Task} (h : task.Fresh) {s : Save} {phase : Save.Phase}
    (htask : task = .save s phase) : phase = .makeDir := by
  rw [htask] at h
  cases phase with
  | makeDir => rfl
  | _ => exact h.elim

section Move

variable {stores : List Store} {d d' : Disk} {errands : List Errand} {i j : Nat} {e f f' : Errand}
  {s : Save} {phase : Save.Phase} {store store' : Store}

/-- A step of a request leaves every save with the image that it should have. -/
theorem Cared.pictured_move (h : Cared D ⟨stores, d, errands⟩)
    (hup : (Upkeep.oneStore ho).Holds ⟨stores, d, errands⟩) (hf : errands[j]? = some f)
    (hs : stores[f.store]? = some store)
    (hmove : Errand.Step (.oneStore dir) f store d f' store' d')
    (he : (errands.set j f')[i]? = some e) (htask : e.task = .save s phase) :
    Pictured D phase e.work d' := by
  rcases getElem?_set_some he with ⟨rfl, rfl⟩ | ⟨hij, hei⟩
  · obtain ⟨phase₀, htask₀⟩ := hmove.of_save htask
    have hpict := h.pictured i f s phase₀ hf htask₀
    have hset := hup.settled hf hs
    obtain ⟨task, number, work⟩ := f
    cases htask₀
    obtain ⟨phase₁, htask₁, hpict'⟩ := hpict.own hset hmove
    rw [htask] at htask₁
    cases htask₁
    exact hpict'
  · refine (h.pictured i e s phase hei htask).other (fun id hid hworks => ?_)
      (hup.harmless hf hs hmove)
    exact hij (h.alone hei htask hid j f hf hworks).symm

end Move

theorem Cared.step (h : Cared D w) (hup : (Upkeep.oneStore ho).Holds w) (hissued : Issued n w')
    (hstep : World.Step (.oneStore dir) w w') : Cared D w' := by
  have hkept := @Cared.kept _ _ _ _ _ _ h hup hstep
  cases hstep with
  | accept stores d errands task number hadmits =>
    refine ⟨fun i e s phase he htask => ?_, fun i e s phase he htask hc => ?_⟩
    · rcases getElem?_concat_some he with hei | ⟨-, rfl⟩
      · exact h.pictured i e s phase hei htask
      · rw [Task.Fresh.makeDir hadmits.1 htask]
        exact trivial
    · rcases getElem?_concat_some he with hei | ⟨-, rfl⟩
      · exact hkept hei htask hc he htask
      · rw [Task.Fresh.makeDir hadmits.1 htask] at hc
        exact hc.elim
  | move stores d errands j f store f' store' d' hf hs hmove =>
    refine ⟨fun i e s phase he htask => h.pictured_move hup hf hs hmove he htask,
      fun i e s phase he htask hc => ?_⟩
    rcases getElem?_set_some he with ⟨rfl, rfl⟩ | ⟨-, hei⟩
    · obtain ⟨phase₀, htask₀⟩ := hmove.of_save htask
      by_cases hc₀ : phase₀.Claimed
      · exact hkept hf htask₀ hc₀ he htask
      · exact .claims hissued he htask₀ htask hmove (hup.settled hf hs) hc₀ hc
    · exact hkept hei htask hc he htask
  | reopen stores d errands config s d' hopen hstart =>
    obtain ⟨rfl, -⟩ := hup.start_eq hopen hstart
    exact ⟨h.pictured, fun i e s phase he htask hc => hkept he htask hc he htask⟩

/-- As long as there are greater numbers left, all saves stay well cared for. -/
theorem Cared.run (hup : (Upkeep.oneStore ho).Holds w) (hissued : Issued 0 w) (hcared : Cared D w)
    (hrun : World.Run (.oneStore dir) n w w') (hn : n < 2 ^ 62) : Issued n w' ∧ Cared D w' := by
  induction hrun with
  | refl w => exact ⟨hissued, hcared⟩
  | tail hrun hstep ih =>
    obtain ⟨hissued₁, hcared₁⟩ := ih hup hissued hcared (by omega)
    have hissued₂ := hissued₁.step (by omega) (hup.run hrun) hstep
    exact ⟨hissued₂, hcared₁.step (hup.run hrun) hissued₂ hstep⟩

end Cared

end DiagramService
