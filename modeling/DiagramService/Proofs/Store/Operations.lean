import DiagramService.Proofs.Diagram.IdSource
import DiagramService.Proofs.Store.Pending

/-! The operations of a save on files, and the ids that it draws, without anything that is known of
the disk. A save has its id marked before and after each operation on the files of its record, and
the id that it draws is greater than those before it while there are greater numbers left. -/

namespace DiagramService

namespace IdSource

/-- While there are greater numbers left, the next id is greater than the last one. -/
theorem last_lt_candidate (source : IdSource) (now : Int64)
    (h : source.last.toInt ≠ 2 ^ 63 - 1) : source.last.toInt < (source.candidate now).toInt := by
  have hmost : source.last.toInt < 2 ^ 63 := source.last.toInt_lt
  rw [source.candidate_toInt now (by omega)]
  omega

end IdSource

namespace Save

/-! ## Operations -/

/-- The id of the record on whose files the next operation is. -/
def Phase.operatesOn? : Phase → Option DiagramId
  | .claim _ record => some record.id
  | .invoke record _ => some record.id
  | .relocate record => some record.id
  | .discard record (_ :: _) _ => some record.id
  | _ => none

section Step

variable {phase : Phase} {id : DiagramId}

/-- The id is marked before the operation. -/
theorem Phase.marked?_of_operatesOn? (h : phase.operatesOn? = some id) :
    phase.marked? = some id := by
  cases phase with
  | discard record paths error =>
    cases paths with
    | nil => cases h
    | cons path paths => exact h
  | claim tries record => exact h
  | invoke record phase => exact h
  | relocate record => exact h
  | _ => cases h

/-- The id is still marked after it. -/
theorem marked?_step (s : Save) (h : phase.operatesOn? = some id) (store : Store) (d : Disk)
    (now : Int) : (s.step phase store d now).1.marked? = some id := by
  cases phase with
  | claim tries record => exact (marked?_claim tries record d now).trans h
  | invoke record phase => exact (marked?_goOn record _).trans h
  | relocate record => exact (marked?_relocate record d).trans h
  | discard record paths error =>
    cases paths with
    | nil => cases h
    | cons path paths => exact h
  | _ => cases h

/-- A save that makes a source goes on with it. -/
theorem claim_made (tries : Nat) (record : SavedDiagram) (d : Disk) (now : Int) :
    (claim tries record d now).2 = d ∨ (claim tries record d now).1 = .invoke record .write := by
  unfold claim Disk.createNew
  cases d.locate .keep record.source with
  | error e =>
    left
    simp only [Disk.fail]
    split <;> rfl
  | ok spot =>
    cases spot with
    | missing place => exact .inr rfl
    | found place x =>
      left
      simp only [Disk.fail]
      split <;> rfl

/-- Besides the operations on its record a save only makes the save directory. -/
theorem step_quiet (s : Save) (hnone : phase.operatesOn? = none) (hdir : phase ≠ .makeDir)
    (store : Store) (d : Disk) (now : Int) : (s.step phase store d now).2.2 = d := by
  cases phase with
  | makeDir => exact absurd rfl hdir
  | draw tries => cases tries <;> rfl
  | discard record paths error =>
    cases paths with
    | nil => rfl
    | cons path paths => cases hnone
  | mark tries record => rfl
  | release tries record => rfl
  | unmark record result => rfl
  | done result => rfl
  | _ => cases hnone

theorem operatesOn?_of_waiting? {source : Path} (h : waiting? phase = some source) :
    ∃ id, phase.operatesOn? = some id := by
  obtain ⟨record, rfl, -⟩ := eq_run_of_waiting? h
  exact ⟨record.id, rfl⟩

/-- A save that is not over and has claimed an id has it marked. -/
theorem Phase.Engaged.marked? (h : phase.Engaged id) (hover : ¬ phase.Over) :
    phase.marked? = some id := by
  rcases h.marked_or_done with hmarked | ⟨result, rfl, -⟩
  · exact hmarked
  · exact absurd trivial hover

theorem engaged_goOn (record : SavedDiagram) (phase : Invocation.Phase) :
    (goOn record phase).Engaged record.id := by
  cases phase with
  | done result => cases result <;> exact rfl
  | _ => exact rfl

/-- It stays with the id until it is over. -/
theorem engaged_step (s : Save) (h : phase.Engaged id) (store : Store) (d : Disk) (now : Int)
    (hover : ¬ (s.step phase store d now).1.Over) :
    (s.step phase store d now).1.Engaged id := by
  cases phase with
  | invoke record phase =>
    obtain rfl : record.id = id := h
    exact engaged_goOn record _
  | relocate record =>
    obtain rfl : record.id = id := h
    simp only [step, relocate]
    split
    · exact rfl
    · split <;> exact rfl
  | discard record paths error => cases paths <;> exact h
  | unmark record result => exact absurd trivial hover
  | done result => exact absurd trivial hover
  | _ => exact h.elim

/-! ## Draws -/

/-- A step draws the next id of the store, or it leaves the ids of the store alone. -/
theorem step_draws (s : Save) (phase : Phase) (store : Store) (d : Disk) (now : Int) :
    (s.step phase store d now).2.1.ids = store.ids ∧
      ((s.step phase store d now).1.drawn? = phase.drawn? ∨
        (s.step phase store d now).1.drawn? = none) ∨
    phase.drawn? = none ∧
      (s.step phase store d now).2.1.ids = ⟨store.ids.candidate (clockId now)⟩ ∧
      (s.step phase store d now).1.drawn? = some ⟨store.ids.candidate (clockId now)⟩ := by
  cases phase with
  | makeDir =>
    simp only [step]
    split <;> exact .inl ⟨rfl, .inl rfl⟩
  | draw tries =>
    cases tries with
    | zero => exact .inl ⟨rfl, .inl rfl⟩
    | succ tries => exact .inr ⟨rfl, rfl, rfl⟩
  | mark tries record => exact .inl ⟨Store.mark_ids, .inl rfl⟩
  | claim tries record =>
    exact .inl ⟨rfl, .inl (Phase.drawn?_of_marked? (marked?_claim tries record d now))⟩
  | release tries record => exact .inl ⟨rfl, .inr rfl⟩
  | invoke record phase =>
    exact .inl ⟨rfl, .inl (Phase.drawn?_of_marked? (marked?_goOn record _))⟩
  | relocate record =>
    exact .inl ⟨rfl, .inl (Phase.drawn?_of_marked? (marked?_relocate record d))⟩
  | discard record paths error => cases paths <;> exact .inl ⟨rfl, .inl rfl⟩
  | unmark record result => exact .inl ⟨rfl, .inr rfl⟩
  | done result => exact .inl ⟨rfl, .inl rfl⟩

end Step

end Save

end DiagramService
