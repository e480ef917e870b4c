import DiagramService.Proofs.Service.Marks
import DiagramService.Proofs.Store.Operations

/-! The ids that the saves of a store draw. As long as there are greater numbers left an id is drawn
once, so no two saves of a store are busy with one id. -/

namespace DiagramService

/-- The id that a request has drawn and not given up. -/
def Task.drawn? : Task → Option DiagramId
  | .save _ phase => phase.drawn?
  | _ => none

theorem Task.Fresh.drawn? {task : Task} (h : task.Fresh) : task.drawn? = none := by
  cases task with
  | save s phase =>
    cases phase with
    | makeDir => rfl
    | _ => exact h.elim
  | _ => rfl

/-- A step draws the next id of its store, or it leaves the ids of the store alone. -/
theorem Errand.Step.draws {R : Rules} {e e' : Errand} {store store' : Store} {d d' : Disk}
    (h : Errand.Step R e store d e' store' d') :
    store'.ids = store.ids ∧ (e'.task.drawn? = e.task.drawn? ∨ e'.task.drawn? = none) ∨
    ∃ now, R.clock now ∧ e.task.drawn? = none ∧
      store'.ids = ⟨store.ids.candidate (clockId now)⟩ ∧
      e'.task.drawn? = some ⟨store.ids.candidate (clockId now)⟩ := by
  cases h with
  | advance task number work _ _ endings now _ hclock =>
    cases task with
    | save s phase => exact (s.step_draws phase store d now).imp_right fun h => ⟨now, hclock, h⟩
    | _ => exact .inl ⟨rfl, .inl rfl⟩
  | finish task _ _ _ _ source outcome hwait =>
    cases task with
    | save s phase =>
      have hmarked := s.marked?_hear hwait outcome
      obtain ⟨record, rfl, -⟩ := Save.eq_run_of_waiting? hwait
      exact .inl ⟨rfl, .inl (Save.Phase.drawn?_of_marked? hmarked)⟩
    | _ => exact .inl ⟨rfl, .inl rfl⟩
  | _ => exact .inl ⟨rfl, .inl rfl⟩

/-- What a request has drawn is no greater than the last id of its store, and no two requests of a
store have drawn the same. -/
structure World.Numbered (w : World) : Prop where
  drawn : ∀ (i : Nat) (e : Errand) (id : DiagramId), w.errands[i]? = some e →
    e.task.drawn? = some id →
    ∃ store, w.stores[e.store]? = some store ∧ id.value.toInt ≤ store.ids.last.toInt
  apart : ∀ (i j : Nat) (e f : Errand) (id : DiagramId), w.errands[i]? = some e →
    w.errands[j]? = some f → e.store = f.store → e.task.drawn? = some id →
    f.task.drawn? = some id → i = j

namespace World.Numbered

variable {R : Rules} {stores : List Store} {d d' : Disk} {errands : List Errand}

theorem start (stores : List Store) (d : Disk) : Numbered ⟨stores, d, []⟩ where
  drawn _ _ _ he := by simp at he
  apart _ _ _ _ _ he := by simp at he

theorem accept (h : Numbered ⟨stores, d, errands⟩) {task : Task} (hfresh : task.Fresh)
    (number : Nat) : Numbered ⟨stores, d, errands ++ [⟨task, number, .idle⟩]⟩ := by
  have hold : ∀ (i : Nat) (e : Errand) id, (errands ++ [⟨task, number, .idle⟩])[i]? = some e →
      e.task.drawn? = some id → errands[i]? = some e := by
    intro i e id he hid
    rcases getElem?_concat_some he with he | ⟨-, rfl⟩
    · exact he
    · rw [hfresh.drawn?] at hid
      cases hid
  refine ⟨fun i e id he hid => ?_, fun i j e f id he hf hstore hid hid' => ?_⟩
  · exact h.drawn i e id (hold i e id he hid) hid
  · exact h.apart i j e f id (hold i e id he hid) (hold j f id hf hid') hstore hid hid'

/-- No number that a save has drawn is greater than the last one of its store. -/
theorem le_last (h : Numbered ⟨stores, d, errands⟩) {j : Nat} {f : Errand} {id : DiagramId}
    {store : Store} (hs : stores[f.store]? = some store) (hf : errands[j]? = some f)
    (hid : f.task.drawn? = some id) : id.value.toInt ≤ store.ids.last.toInt := by
  obtain ⟨st, hst, hle⟩ := h.drawn j f id hf hid
  rw [show stores[f.store]? = some store from hs] at hst
  cases hst
  exact hle

section Move

variable {i : Nat} {e e' : Errand} {store store' : Store}

/-- A step draws a greater number than its store has issued before, or issues none. -/
theorem last_le (hstep : Errand.Step R e store d e' store' d')
    (hroom : e.task.drawn? = none → e'.task.drawn? ≠ none → store.ids.last.toInt ≠ 2 ^ 63 - 1) :
    store.ids.last.toInt ≤ store'.ids.last.toInt := by
  rcases hstep.draws with ⟨heq, -⟩ | ⟨now, -, hnone, heq, hsome⟩ <;> rw [heq]
  exact Int.le_of_lt
    (store.ids.last_lt_candidate (clockId now) (hroom hnone (by rw [hsome]; nofun)))

/-- What a request has drawn after its step is not what another one of its store has drawn. -/
theorem not_drawn (h : Numbered ⟨stores, d, errands⟩) (he : errands[i]? = some e)
    (hs : stores[e.store]? = some store) (hstep : Errand.Step R e store d e' store' d')
    (hroom : e.task.drawn? = none → e'.task.drawn? ≠ none → store.ids.last.toInt ≠ 2 ^ 63 - 1)
    {j : Nat} {f : Errand} {id : DiagramId} (hji : j ≠ i) (hf : errands[j]? = some f)
    (hstore : f.store = e.store) (hid : f.task.drawn? = some id) : e'.task.drawn? ≠ some id := by
  intro hid'
  rcases hstep.draws with ⟨-, heq | heq⟩ | ⟨now, -, hnone, -, hsome⟩
  · exact hji (h.apart j i f e id hf he hstore hid (heq ▸ hid'))
  · rw [heq] at hid'
    cases hid'
  · have hle := h.le_last (hstore ▸ hs) hf hid
    have hlt := store.ids.last_lt_candidate (clockId now) (hroom hnone (by rw [hsome]; nofun))
    rw [hsome] at hid'
    cases hid'
    exact absurd hlt (Int.not_lt.mpr hle)

theorem move (h : Numbered ⟨stores, d, errands⟩) (he : errands[i]? = some e)
    (hs : stores[e.store]? = some store) (hstep : Errand.Step R e store d e' store' d')
    (hroom : e.task.drawn? = none → e'.task.drawn? ≠ none → store.ids.last.toInt ≠ 2 ^ 63 - 1) :
    Numbered ⟨stores.set e.store store', d', errands.set i e'⟩ := by
  have hlt := (List.getElem?_eq_some_iff.mp hs).1
  have hself : (stores.set e.store store')[e.store]? = some store' := List.getElem?_set_self hlt
  have hnumber := hstep.store_eq.1
  refine ⟨fun j f id hf hid => ?_, fun j k f g id hf hg hstore hid hid' => ?_⟩
  · rcases getElem?_set_some hf with ⟨-, rfl⟩ | ⟨-, hfj⟩
    · refine ⟨store', hnumber ▸ hself, ?_⟩
      rcases hstep.draws with ⟨hids, heq | heq⟩ | ⟨now, -, -, hids, hsome⟩
      · rw [hids]
        exact h.le_last hs he (heq ▸ hid)
      · rw [heq] at hid
        cases hid
      · rw [hsome] at hid
        cases hid
        rw [hids]
    · by_cases hstore : f.store = e.store
      · have hle := h.le_last (hstore ▸ hs) hfj hid
        exact ⟨store', hstore ▸ hself, Int.le_trans hle (last_le hstep hroom)⟩
      · obtain ⟨st, hst, hle⟩ := h.drawn j f id hfj hid
        exact ⟨st, (List.getElem?_set_ne (Ne.symm hstore)).trans hst, hle⟩
  · rcases getElem?_set_some hf with ⟨rfl, rfl⟩ | ⟨hji, hfj⟩
    · rcases getElem?_set_some hg with ⟨rfl, rfl⟩ | ⟨hki, hgk⟩
      · rfl
      · exact absurd hid (h.not_drawn he hs hstep hroom hki hgk (hstore.symm.trans hnumber) hid')
    · rcases getElem?_set_some hg with ⟨rfl, rfl⟩ | ⟨hki, hgk⟩
      · exact absurd hid' (h.not_drawn he hs hstep hroom hji hfj (hstore.trans hnumber) hid)
      · exact h.apart j k f g id hfj hgk hstore hid hid'

end Move

theorem reopen (h : Numbered ⟨stores, d, errands⟩) (store : Store) (d' : Disk) :
    Numbered ⟨stores ++ [store], d', errands⟩ := by
  refine ⟨fun i e id he hid => ?_, h.apart⟩
  obtain ⟨st, hst, hle⟩ := h.drawn i e id he hid
  exact ⟨st, (List.getElem?_append_left (List.getElem?_eq_some_iff.mp hst).1).trans hst, hle⟩

end World.Numbered

end DiagramService
