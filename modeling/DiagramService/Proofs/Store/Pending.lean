import DiagramService.Proofs.Store.Save

/-! The ids that are pending. A save marks its id before it makes the source and unmarks it when it
is over, or when the id turns out to be taken. In between it stays with its id. -/

namespace DiagramService

namespace Save

/-! ## Marks -/

/-- The id that a save has marked and not unmarked. -/
def Phase.marked? : Phase → Option DiagramId
  | .claim _ record => some record.id
  | .release _ record => some record.id
  | .invoke record _ => some record.id
  | .relocate record => some record.id
  | .discard record _ _ => some record.id
  | .unmark record _ => some record.id
  | _ => none

theorem marked?_goOn (record : SavedDiagram) (phase : Invocation.Phase) :
    (goOn record phase).marked? = some record.id := by
  cases phase with
  | done result => cases result <;> rfl
  | _ => rfl

theorem marked?_claim (tries : Nat) (record : SavedDiagram) (d : Disk) (now : Int) :
    (claim tries record d now).1.marked? = some record.id := by
  unfold claim
  split
  · rfl
  · split <;> rfl

theorem marked?_relocate (record : SavedDiagram) (d : Disk) :
    (relocate record d).1.marked? = some record.id := by
  unfold relocate
  split
  · rfl
  · split <;> rfl

/-- A step marks an id in the store, or unmarks the one that the save has marked, or leaves the
pending ids alone. This needs nothing of the disk. -/
theorem step_marks (s : Save) (phase : Phase) (store : Store) (d : Disk) (now : Int) :
    (s.step phase store d now).2.1.pending = store.pending ∧
      (s.step phase store d now).1.marked? = phase.marked? ∨
    (∃ id, phase.marked? = none ∧ (s.step phase store d now).1.marked? = some id ∧
      (s.step phase store d now).2.1 = store.mark id) ∨
    (∃ id, phase.marked? = some id ∧ (s.step phase store d now).1.marked? = none ∧
      (s.step phase store d now).2.1 = store.unmark id) := by
  cases phase with
  | makeDir =>
    simp only [step]
    split <;> exact .inl ⟨rfl, rfl⟩
  | draw tries => cases tries <;> exact .inl ⟨rfl, rfl⟩
  | mark tries record => exact .inr (.inl ⟨record.id, rfl, rfl, rfl⟩)
  | claim tries record => exact .inl ⟨rfl, marked?_claim tries record d now⟩
  | release tries record => exact .inr (.inr ⟨record.id, rfl, rfl, rfl⟩)
  | invoke record phase => exact .inl ⟨rfl, marked?_goOn record _⟩
  | relocate record => exact .inl ⟨rfl, marked?_relocate record d⟩
  | discard record paths error => cases paths <;> exact .inl ⟨rfl, rfl⟩
  | unmark record result => exact .inr (.inr ⟨record.id, rfl, rfl, rfl⟩)
  | done result => exact .inl ⟨rfl, rfl⟩

theorem step_dir (s : Save) (phase : Phase) (store : Store) (d : Disk) (now : Int) :
    (s.step phase store d now).2.1.dir = store.dir := by
  cases phase with
  | makeDir =>
    simp only [step]
    split <;> rfl
  | draw tries => cases tries <;> rfl
  | mark tries record => exact Store.mark_dir
  | discard record paths error => cases paths <;> rfl
  | _ => rfl

theorem marked?_hear {phase : Phase} {source : Path} (s : Save)
    (hwait : waiting? phase = some source) (outcome : RunOutcome) :
    (s.hear phase outcome).marked? = phase.marked? := by
  obtain ⟨record, rfl, -⟩ := eq_run_of_waiting? hwait
  exact marked?_goOn record _

/-! ## The id of a save -/

/-- The id that a save has drawn and not given up, also when the save was successful. -/
def Phase.bears? : Phase → Option DiagramId
  | .done (.ok record) => some record.id
  | phase => phase.drawn?

theorem Phase.bears?_of_drawn? {phase : Phase} {id : DiagramId} (h : phase.drawn? = some id) :
    phase.bears? = some id := by
  cases phase <;> first | exact h | cases h

theorem Phase.drawn?_of_marked? {phase : Phase} {id : DiagramId} (h : phase.marked? = some id) :
    phase.drawn? = some id := by
  cases phase <;> first | exact h | cases h

theorem Phase.bears?_of_held? {phase : Phase} {id : DiagramId} (h : phase.held? = some id) :
    phase.bears? = some id := by
  cases phase with
  | invoke record phase => exact h
  | relocate record => exact h
  | discard record paths error =>
    simp only [held?, Option.ite_none_right_eq_some] at h
    exact h.2
  | unmark record result =>
    cases result with
    | ok record' => exact h
    | error error => cases h
  | done result =>
    cases result with
    | ok record => exact h
    | error error => cases h
  | _ => cases h

/-- A save that has claimed an id stays with it until the save is over. -/
def Phase.Engaged (id : DiagramId) : Phase → Prop
  | .invoke record _ => record.id = id
  | .relocate record => record.id = id
  | .discard record _ _ => record.id = id
  | .unmark record _ => record.id = id
  | .done result => ∀ record, result = .ok record → record.id = id
  | _ => False

theorem Phase.Engaged.marked_or_done {phase : Phase} {id : DiagramId} (h : phase.Engaged id) :
    phase.marked? = some id ∨
      ∃ result, phase = .done result ∧ ∀ record, result = .ok record → record.id = id := by
  cases phase with
  | invoke record phase => exact .inl (congrArg some h)
  | relocate record => exact .inl (congrArg some h)
  | discard record paths error => exact .inl (congrArg some h)
  | unmark record result => exact .inl (congrArg some h)
  | done result => exact .inr ⟨result, rfl, h⟩
  | _ => exact h.elim

theorem Phase.engaged_of_held? {phase : Phase} {id : DiagramId} (h : phase.held? = some id) :
    phase.Engaged id := by
  cases phase with
  | invoke record phase => exact Option.some.inj h
  | relocate record => exact Option.some.inj h
  | discard record paths error =>
    simp only [held?, Option.ite_none_right_eq_some, Option.some.injEq] at h
    exact h.2
  | unmark record result =>
    cases result with
    | ok record' => exact Option.some.inj h
    | error error => cases h
  | done result =>
    cases result with
    | ok record =>
      rintro record' ⟨⟩
      exact Option.some.inj h
    | error error => cases h
  | _ => cases h

theorem engaged_hear_run (s : Save) (record : SavedDiagram) (outcome : RunOutcome) :
    (s.hear (.invoke record .run) outcome).Engaged record.id := by
  rcases hear_run s record outcome with h | ⟨error, h⟩ <;> rw [h] <;> exact rfl

section Advance

variable {s : Save} {dir : Path} {D : Place} {d d' : Disk} {store store' : Store} {now : Int}
  {phase phase' : Phase} {id : DiagramId}

/-- The next id of the store is the only one that a save comes to bear. -/
theorem Advance.bears (h : Advance s dir D now phase store d phase' store' d')
    (hp : phase.Proper dir) :
    store'.ids = store.ids ∧ (phase'.bears? = phase.bears? ∨ phase'.bears? = none) ∨
    store'.ids = ⟨store.ids.candidate (clockId now)⟩ ∧
      phase'.bears? = some ⟨store.ids.candidate (clockId now)⟩ := by
  rcases h.draws with ⟨hids, hdrawn⟩ | ⟨hids, hdrawn⟩
  · refine .inl ⟨hids, ?_⟩
    cases h with
    | unmark _ _ id result =>
      cases result with
      | ok record =>
        obtain ⟨-, -, rfl⟩ := hp
        exact .inl rfl
      | error error => exact .inr rfl
    | done => exact .inl rfl
    | release => exact .inr rfl
    | _ => exact hdrawn
  · exact .inr ⟨hids, Phase.bears?_of_drawn? hdrawn⟩

theorem Advance.engaged (h : Advance s dir D now phase store d phase' store' d')
    (hp : phase.Proper dir) (he : phase.Engaged id) : phase'.Engaged id := by
  cases h with
  | unmark _ _ id' result =>
    rintro record rfl
    obtain ⟨-, -, rfl⟩ := hp
    exact he
  | _ => first | exact he | exact he.elim

/-- A source that is there after a step is held by the save, or it was there and not held. -/
theorem Advance.source (h : Advance s dir D now phase store d phase' store' d')
    (hp : phase.Proper dir) (hget : d'.get? (id.sourceName :: D) ≠ none) :
    phase'.held? = some id ∨
      phase.held? ≠ some id ∧ d.get? (id.sourceName :: D) ≠ none := by
  by_cases hheld : phase'.held? = some id
  · exact .inl hheld
  refine .inr ?_
  have hnone : (none : Option DiagramId) ≠ some id := (Option.some_ne_none id).symm
  have hother : ∀ id', id' ≠ id → id.sourceName :: D ≠ id'.sourceName :: D := fun id' hne heq =>
    hne (DiagramId.sourceName_injective (List.cons.inj heq).1).symm
  cases h with
  | claim _ _ tries id' =>
    have hne : id' ≠ id := fun heq => hheld (congrArg some heq)
    rw [Disk.get?_set_of_ne d (hother id' hne)] at hget
    exact ⟨hnone, hget⟩
  | write _ _ id' =>
    have hne : id' ≠ id := fun heq => hheld (congrArg some heq)
    rw [Disk.get?_set_of_ne d (hother id' hne)] at hget
    exact ⟨hheld, hget⟩
  | clear _ _ id' =>
    rw [Disk.get?_erase_of_ne d (source_ne_image D id id')] at hget
    exact ⟨hheld, hget⟩
  | blocked =>
    rw [held?_giveUp] at hheld
    exact ⟨hheld, hget⟩
  | unread =>
    rw [held?_giveUp] at hheld
    exact ⟨hheld, hget⟩
  | discardSource _ _ id' =>
    -- this is the only step that removes a source, and it is the one that was held
    have hne : id' ≠ id := by
      rintro rfl
      exact hget (Disk.get?_erase_self d (List.cons_ne_nil _ _))
    rw [Disk.get?_erase_of_ne d (hother id' hne)] at hget
    refine ⟨fun hid => hne ?_, hget⟩
    simp only [Phase.held?, if_true, Option.some.injEq] at hid
    exact hid
  | discardImage _ _ id' =>
    rw [Disk.get?_erase_of_ne d (source_ne_image D id id')] at hget
    rw [held?_discard_replicate]
    exact ⟨hnone, hget⟩
  | discardNothing =>
    rw [held?_discard_replicate]
    exact ⟨hnone, hget⟩
  | discarded _ _ id' =>
    rw [show ([] : List Path) = List.replicate 0 (dir.join id'.imageName) from rfl,
      held?_discard_replicate]
    exact ⟨hnone, hget⟩
  | unmark _ _ id' result =>
    cases result with
    | ok record =>
      obtain ⟨-, -, rfl⟩ := hp
      exact ⟨hheld, hget⟩
    | error error => exact ⟨hheld, hget⟩
  | _ => exact ⟨hheld, hget⟩

end Advance

end Save

end DiagramService
