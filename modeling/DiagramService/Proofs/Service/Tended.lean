import DiagramService.Proofs.Service.Ledger

/-! The image of a record. While no other request works on the id of a save, nobody else gets at its
image, and nobody else can begin to work on that id. -/

namespace DiagramService

/-- A request changes no image but that of the record that it works on. -/
theorem Errand.Harmless.image_some {D : Place} {e e' : Errand} {d d' : Disk}
    (h : e.Harmless D d e' d') {id : DiagramId} (hid : e.task.worksOn? ≠ some id) {x : Entry}
    (hget : d.get? (id.imageName :: D) = some x) : d'.get? (id.imageName :: D) = some x := by
  rcases h.image id hid with heq | ⟨hnone, -⟩
  · rw [heq, hget]
  · rw [hget] at hnone
    cases hnone

/-- A save that has claimed its id, and no other request works on that. -/
structure Tended (D : Place) (i : Nat) (phase : Save.Phase) (w : World) : Prop where
  claimed : phase.Claimed
  alone : ∀ id, phase.keeps? = some id → w.Alone i id
  image : ∀ id, phase.imaged? = some id → w.disk.get? (id.imageName :: D) ≠ none

section Tended

variable {R : Rules} {D : Place} {U : Upkeep R D} {stores stores' : List Store} {d d' : Disk}
  {errands : List Errand} {i : Nat} {e e' : Errand} {store store' : Store} {s : Save}
  {phase : Save.Phase}

theorem held_of_keeps (htask : e.task = .save s phase) {id : DiagramId}
    (hid : phase.keeps? = some id) : e.task.held? = some id := by
  rw [htask]
  exact Save.Phase.held?_of_keeps? hid

/-- The steps of other requests do not get at the record. -/
theorem Tended.other (ht : Tended D i phase ⟨stores, d, errands⟩)
    (h : U.Holds ⟨stores, d, errands⟩) (he : errands[i]? = some e)
    (htask : e.task = .save s phase) {j : Nat} {f f' : Errand} (hji : j ≠ i)
    (hf : errands[j]? = some f) (hharm : f.Harmless D d f' d') :
    Tended D i phase ⟨stores', d', errands.set j f'⟩ := by
  refine ⟨ht.claimed, fun id hid => ?_, fun id hid => ?_⟩
  · exact (ht.alone id hid).move h.ledger he (held_of_keeps htask hid) hf hharm stores'
  · have hid' := Save.Phase.keeps?_of_imaged? hid
    obtain ⟨x, hget⟩ := Option.ne_none_iff_exists'.mp (ht.image id hid)
    have hworks : f.task.worksOn? ≠ some id := fun hw => hji (ht.alone id hid' j f hf hw)
    rw [show d'.get? (id.imageName :: D) = some x from hharm.image_some hworks hget]
    nofun

/-- A step of the save itself: it keeps its id or fails, and has an image once it could read it. -/
theorem Tended.own (ht : Tended D i phase ⟨stores, d, errands⟩)
    (h : U.Holds ⟨stores, d, errands⟩) (he : errands[i]? = some e)
    (htask : e.task = .save s phase) (hs : stores[e.store]? = some store)
    (hstep : Errand.Step R e store d e' store' d') :
    ∃ phase', e'.task = .save s phase' ∧
      (phase'.keeps? = phase.keeps? ∨ phase'.keeps? = none) ∧
      Tended D i phase' ⟨stores', d', errands.set i e'⟩ := by
  have hset := h.settled he hs
  have halone : ∀ id, phase.keeps? = some id →
      World.Alone ⟨stores', d', errands.set i e'⟩ i id := fun id hid =>
    (ht.alone id hid).move h.ledger he (held_of_keeps htask hid) he (h.harmless he hs hstep) stores'
  obtain ⟨task, number, work⟩ := e
  cases htask
  cases hstep with
  | advance _ _ _ _ _ endings now =>
    have hadv := Save.Settled.advance hset now
    have hkeeps := hadv.keeps hset.proper ht.claimed
    refine ⟨_, rfl, hkeeps, hadv.claimed ht.claimed, fun id hid => ?_, fun id hid => ?_⟩
    · rcases hkeeps with heq | heq <;> rw [heq] at hid
      · exact halone id hid
      · cases hid
    · obtain ⟨hd, hid' | ⟨-, content, hread⟩⟩ := hadv.imaged hset.proper hid
      · rw [show World.disk _ = d from hd]
        exact ht.image id hid'
      · intro hnone
        rw [show World.disk _ = d from hd] at hnone
        have hname := id.imageName_ordinary
        rw [hset.opens.contentAt_missing hname (Disk.spelled_of_contentAt hname hread) hnone]
          at hread
        cases hread
  | begin _ _ _ _ source hwait =>
    obtain ⟨record, rfl, rfl⟩ := Save.eq_run_of_waiting? hwait
    exact ⟨_, rfl, .inl rfl, ht.claimed, halone, nofun⟩
  | act _ _ given _ _ source _ hwait hact =>
    obtain ⟨record, rfl, rfl⟩ := Save.eq_run_of_waiting? hwait
    exact ⟨_, rfl, .inl rfl, ht.claimed, halone, nofun⟩
  | finish _ _ given _ _ source outcome hwait _ =>
    obtain ⟨record, rfl, rfl⟩ := Save.eq_run_of_waiting? hwait
    refine ⟨_, rfl, ?_⟩
    rcases Save.hear_run s record outcome with heq | ⟨error, heq⟩ <;> rw [heq]
    · exact ⟨.inl rfl, trivial, halone, nofun⟩
    · exact ⟨.inr rfl, trivial, nofun, nofun⟩

end Tended

namespace Upkeep

variable {R : Rules} {D : Place} {U : Upkeep R D} {w w' : World} {i : Nat} {e : Errand} {s : Save}

/-- A save that is tended stays so. -/
theorem Holds.tended (h : U.Holds w) (hstep : World.Step R w w') {phase : Save.Phase}
    (he : w.errands[i]? = some e) (htask : e.task = .save s phase) (ht : Tended D i phase w) :
    ∃ e' phase', w'.errands[i]? = some e' ∧ e'.task = .save s phase' ∧
      (phase'.keeps? = phase.keeps? ∨ phase'.keeps? = none) ∧ Tended D i phase' w' := by
  have hlt := (List.getElem?_eq_some_iff.mp he).1
  cases hstep with
  | accept stores d errands task number hadmits =>
    refine ⟨e, phase, (List.getElem?_append_left hlt).trans he, htask, .inl rfl, ht.claimed,
      fun id hid j f hf hworks => ?_, ht.image⟩
    rcases getElem?_concat_some hf with hf | ⟨-, rfl⟩
    · exact ht.alone id hid j f hf hworks
    · rw [(U.admits hadmits).1.worksOn?] at hworks
      cases hworks
  | move stores d errands j f store f' store' d' hf hs hmove =>
    by_cases hji : j = i
    · subst hji
      rw [show errands[j]? = some f from hf] at he
      cases he
      obtain ⟨phase', htask', hkeeps, ht'⟩ := ht.own h hf htask hs hmove
      exact ⟨f', phase', List.getElem?_set_self hlt, htask', hkeeps, ht'⟩
    · exact ⟨e, phase, (List.getElem?_set_ne hji).trans he, htask, .inl rfl,
        ht.other h he htask hji hf (h.harmless hf hs hmove)⟩
  | reopen stores d errands config s' d' hopen hstart =>
    obtain ⟨rfl, -⟩ := h.start_eq hopen hstart
    exact ⟨e, phase, he, htask, .inl rfl, ht.claimed, ht.alone, ht.image⟩

end Upkeep

end DiagramService
