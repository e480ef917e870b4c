import DiagramService.Proofs.Service.Ledger
import DiagramService.Proofs.Store.Listing
import DiagramService.Proofs.Store.Pending

/-! Pending ids among requests. Whatever else goes on, an id is pending in a store only while a save
of this store has it marked. And whatever else goes on, a listing goes its own way. -/

namespace DiagramService

namespace Task

/-- The id that a request has marked and not unmarked. -/
def marked? : Task → Option DiagramId
  | .save _ phase => phase.marked?
  | _ => none

/-- The id that a request has drawn and not given up, also when it was successful. -/
def bears? : Task → Option DiagramId
  | .save _ phase => phase.bears?
  | _ => none

/-- A request that has claimed an id, and stays with it until it is over. -/
def Engaged (id : DiagramId) : Task → Prop
  | .save _ phase => phase.Engaged id
  | _ => False

theorem Fresh.bears? {task : Task} (h : task.Fresh) : task.bears? = none := by
  cases task with
  | save s phase =>
    cases phase with
    | makeDir => rfl
    | _ => exact h.elim
  | _ => rfl

theorem bears?_of_marked? {task : Task} {id : DiagramId} (h : task.marked? = some id) :
    task.bears? = some id := by
  cases task with
  | save s phase => exact Save.Phase.bears?_of_drawn? (Save.Phase.drawn?_of_marked? h)
  | _ => cases h

theorem bears?_of_worksOn? {task : Task} {id : DiagramId} (h : task.worksOn? = some id) :
    task.bears? = some id := by
  cases task with
  | save s phase => exact Save.Phase.bears?_of_drawn? (Save.Phase.drawn?_of_worksOn? h)
  | _ => cases h

theorem bears?_of_held? {task : Task} {id : DiagramId} (h : task.held? = some id) :
    task.bears? = some id := by
  cases task with
  | save s phase => exact Save.Phase.bears?_of_held? h
  | _ => cases h

theorem engaged_of_held? {task : Task} {id : DiagramId} (h : task.held? = some id) :
    task.Engaged id := by
  cases task with
  | save s phase => exact Save.Phase.engaged_of_held? h
  | _ => cases h

/-- A request that is engaged has its id marked, or it is a save that is over. -/
theorem Engaged.marked_or_done {task : Task} {id : DiagramId} (h : task.Engaged id) :
    task.marked? = some id ∨ ∃ s result, task = .save s (.done result) ∧
      ∀ record, result = .ok record → record.id = id := by
  cases task with
  | save s phase =>
    rcases Save.Phase.Engaged.marked_or_done h with hmarked | ⟨result, rfl, hid⟩
    · exact .inl hmarked
    · exact .inr ⟨s, result, rfl, hid⟩
  | _ => exact h.elim

end Task

section Step

variable {R : Rules} {e e' : Errand} {store store' : Store} {d d' : Disk}

/-- A step of a request stays with its store, and this with its directory. -/
theorem Errand.Step.store_eq (h : Errand.Step R e store d e' store' d') :
    e'.store = e.store ∧ store'.dir = store.dir := by
  cases h with
  | advance task number work _ _ endings now =>
    cases task with
    | save s phase => exact ⟨rfl, s.step_dir phase store d now⟩
    | _ => exact ⟨rfl, rfl⟩
  | _ => exact ⟨rfl, rfl⟩

/-- A step marks an id in the store, or unmarks the one that the request has marked, or leaves the
pending ids alone. -/
theorem Errand.Step.marks (h : Errand.Step R e store d e' store' d') :
    store'.pending = store.pending ∧ e'.task.marked? = e.task.marked? ∨
    (∃ id, e.task.marked? = none ∧ e'.task.marked? = some id ∧ store' = store.mark id) ∨
    (∃ id, e.task.marked? = some id ∧ e'.task.marked? = none ∧ store' = store.unmark id) := by
  cases h with
  | advance task number work _ _ endings now =>
    cases task with
    | save s phase => exact s.step_marks phase store d now
    | _ => exact .inl ⟨rfl, rfl⟩
  | finish task _ _ _ _ source outcome hwait =>
    cases task with
    | save s phase => exact .inl ⟨rfl, s.marked?_hear hwait outcome⟩
    | _ => exact .inl ⟨rfl, rfl⟩
  | _ => exact .inl ⟨rfl, rfl⟩

end Step

/-! ## Pending ids have a save -/

/-- Every pending id is marked by a request of the same store. -/
def World.Backed (w : World) : Prop :=
  ∀ (k : Nat) (store : Store) (id : DiagramId), w.stores[k]? = some store →
    store.isPending id = true →
    ∃ (j : Nat) (f : Errand), w.errands[j]? = some f ∧ f.store = k ∧ f.task.marked? = some id

section Backed

variable {R : Rules} {stores : List Store} {d d' : Disk} {errands : List Errand}

theorem World.Backed.start (h : ∀ store ∈ stores, store.pending = []) (d : Disk) :
    World.Backed ⟨stores, d, []⟩ := by
  intro k store id hk hpending
  rw [Store.isPending, h store (List.mem_of_getElem? hk)] at hpending
  simp at hpending

theorem World.Backed.move (h : World.Backed ⟨stores, d, errands⟩) {i : Nat} {e e' : Errand}
    {store store' : Store} (he : errands[i]? = some e) (hs : stores[e.store]? = some store)
    (hstep : Errand.Step R e store d e' store' d') :
    World.Backed ⟨stores.set e.store store', d', errands.set i e'⟩ := by
  intro k st id hk hpending
  have hlt := (List.getElem?_eq_some_iff.mp he).1
  have hself : (errands.set i e')[i]? = some e' := List.getElem?_set_self hlt
  -- whoever had the id marked still has, but for the request that moves
  have hkeep : ∀ {number}, (∃ (j : Nat) (f : Errand), errands[j]? = some f ∧ f.store = number ∧
      f.task.marked? = some id) → (e.store = number → e.task.marked? = some id →
        e'.task.marked? = some id) →
      ∃ (j : Nat) (f : Errand), (errands.set i e')[j]? = some f ∧ f.store = number ∧
        f.task.marked? = some id := by
    rintro number ⟨j, f, hf, hnumber, hmarked⟩ hmove
    by_cases hji : j = i
    · subst hji
      rw [he] at hf
      cases hf
      exact ⟨j, e', hself, hstep.store_eq.1.trans hnumber, hmove hnumber hmarked⟩
    · exact ⟨j, f, (List.getElem?_set_ne (Ne.symm hji)).trans hf, hnumber, hmarked⟩
  rcases getElem?_set_some hk with ⟨rfl, rfl⟩ | ⟨hne, hk⟩
  · rcases hstep.marks with ⟨hsame, hmarked⟩ | ⟨id', hnone, hsome, rfl⟩ | ⟨id', hsome, hnone, rfl⟩
    · have hold : store.isPending id = true := by rwa [Store.isPending, ← hsame]
      exact hkeep (h _ store id hs hold) fun _ hid => hmarked.trans hid
    · rcases Store.isPending_mark_iff.mp hpending with rfl | hold
      · exact ⟨i, e', hself, hstep.store_eq.1, hsome⟩
      · refine hkeep (h _ store id hs hold) fun _ hid => ?_
        rw [hnone] at hid
        cases hid
    · obtain ⟨hne, hold⟩ := Store.isPending_unmark_iff.mp hpending
      refine hkeep (h _ store id hs hold) fun _ hid => absurd ?_ hne
      exact Option.some.inj (hid.symm.trans hsome)
  · exact hkeep (h k st id hk hpending) fun hnumber => absurd hnumber.symm hne

theorem World.Backed.step {w w' : World} (h : w.Backed) (hstep : World.Step R w w') :
    w'.Backed := by
  cases hstep with
  | accept stores d errands task number =>
    intro k store id hk hpending
    obtain ⟨j, f, hf, hrest⟩ := h k store id hk hpending
    exact ⟨j, f, (List.getElem?_append_left (List.getElem?_eq_some_iff.mp hf).1).trans hf, hrest⟩
  | move stores d errands i e store e' store' d' he hs hmove => exact h.move he hs hmove
  | reopen stores d errands config s d' hopen hstart =>
    intro k store id hk hpending
    rcases getElem?_concat_some hk with hk | ⟨-, rfl⟩
    · exact h k store id hk hpending
    · -- a store that has just been opened has no pending ids
      unfold Service.start at hstart
      split at hstart
      · cases hstart
        simp [Store.isPending, Store.open_] at hpending
      · cases hstart

end Backed

/-! ## A listing among other requests -/

/-- A listing keeps its store, and either waits or takes its own next step. -/
theorem World.Step.listing {R : Rules} {w w' : World} (h : World.Step R w w') {i number : Nat}
    {phase : Listing.Phase} {work : Work} {store : Store}
    (he : w.errands[i]? = some ⟨.list phase, number, work⟩)
    (hs : w.stores[number]? = some store) :
    (∃ store', w'.stores[number]? = some store' ∧ store'.dir = store.dir) ∧
      (w'.errands[i]? = some ⟨.list phase, number, work⟩ ∨
        w'.errands[i]? = some ⟨.list (Listing.step phase store w.disk), number, work⟩) := by
  have hlt := (List.getElem?_eq_some_iff.mp he).1
  cases h with
  | accept stores d errands task number' =>
    exact ⟨⟨store, hs, rfl⟩, .inl ((List.getElem?_append_left hlt).trans he)⟩
  | move stores d errands j f st f' st' d' hf hst hmove =>
    refine ⟨store_set hst hmove.store_eq.2 hs, ?_⟩
    -- a listing has no renderer, so it can only take its own next step
    by_cases hij : j = i
    · subst hij
      rw [show _ = some f from hf] at he
      cases he
      rw [show _ = some st from hst] at hs
      cases hs
      refine .inr ((List.getElem?_set_self hlt).trans (congrArg some ?_))
      cases hmove with
      | advance => rfl
      | begin _ _ _ _ source hwait => cases hwait
      | act _ _ _ _ _ source _ hwait => cases hwait
      | finish _ _ _ _ _ source _ hwait => cases hwait
    · exact .inl ((List.getElem?_set_ne hij).trans he)
  | reopen stores d errands config s d' hopen hstart =>
    refine ⟨⟨store, ?_, rfl⟩, .inl he⟩
    exact (List.getElem?_append_left (List.getElem?_eq_some_iff.mp hs).1).trans hs

end DiagramService
