import DiagramService.Proofs.Service.Numbered
import DiagramService.Proofs.Service.OneStore

/-! The ids that one store draws. As long as there are greater numbers left an id is drawn once, so
no two requests that are in progress are busy with one id. -/

namespace DiagramService

theorem Task.drawn?_of_worksOn? {task : Task} {id : DiagramId} (h : task.worksOn? = some id) :
    task.drawn? = some id := by
  cases task with
  | save s phase => exact Save.Phase.drawn?_of_worksOn? h
  | _ => cases h

theorem Task.saving_of_drawn? {task : Task} {id : DiagramId} (h : task.drawn? = some id) :
    task.Saving := by
  cases task with
  | save s phase => exact Save.Phase.not_over_of_drawn? h
  | _ => cases h

/-- No request begins to save later than when it is taken up. -/
theorem Errand.Step.saving {R : Rules} {D : Place} {e e' : Errand} {store store' : Store}
    {d d' : Disk} (h : Errand.Step R e store d e' store' d')
    (hset : e.task.Settled store.dir D d) (hsaving : e'.task.Saving) : e.task.Saving := by
  obtain ⟨task, number, work⟩ := e
  cases task with
  | save s phase =>
    cases h with
    | advance _ _ _ _ _ endings now =>
      exact fun hover => hsaving ((Save.Settled.advance hset now).over hover)
    | finish _ _ _ _ _ source outcome hwait =>
      obtain ⟨record, rfl, rfl⟩ := Save.eq_run_of_waiting? hwait
      nofun
    | _ => exact hsaving
  | _ => cases h <;> exact hsaving

/-! ## Ids of one store -/

/-- The store in use has the requests that save, and no two of these have drawn the same id. -/
structure Issued (n : Nat) (w : World) : Prop where
  bound : ∀ store ∈ w.stores, store.ids.last.toInt < 2 ^ 62 + n
  current : ∀ (i : Nat) (e : Errand), w.errands[i]? = some e → e.task.Saving →
    e.store + 1 = w.stores.length
  drawn : ∀ (i : Nat) (e : Errand) (id : DiagramId) (store : Store), w.errands[i]? = some e →
    e.task.drawn? = some id → w.stores[e.store]? = some store →
    id.value.toInt ≤ store.ids.last.toInt
  apart : ∀ (i j : Nat) (e e' : Errand) (id : DiagramId), w.errands[i]? = some e →
    w.errands[j]? = some e' → e.task.drawn? = some id → e'.task.drawn? = some id → i = j

section Issued

variable {dir : Path} {D : Place} {n : Nat} {stores : List Store} {d d' : Disk}
  {errands : List Errand}

theorem Issued.numbered {w : World} (h : Issued n w) : w.Numbered := by
  refine ⟨fun i e id he hid => ?_, fun i j e f id he hf _ => h.apart i j e f id he hf⟩
  have hcurrent := h.current i e he (Task.saving_of_drawn? hid)
  obtain ⟨store, hs⟩ : ∃ store, w.stores[e.store]? = some store :=
    ⟨_, List.getElem?_eq_getElem (by omega)⟩
  exact ⟨store, hs, h.drawn i e id store he hid hs⟩

theorem Issued.of_numbered {w : World}
    (hbound : ∀ store ∈ w.stores, store.ids.last.toInt < 2 ^ 62 + n)
    (hcurrent : ∀ (i : Nat) (e : Errand), w.errands[i]? = some e → e.task.Saving →
      e.store + 1 = w.stores.length) (h : w.Numbered) : Issued n w := by
  refine ⟨hbound, hcurrent, fun i e id store he hid hs => ?_,
    fun i j e f id he hf hid hid' => ?_⟩
  · obtain ⟨st, hst, hle⟩ := h.drawn i e id he hid
    rw [hs] at hst
    cases hst
    exact hle
  · have he' := hcurrent i e he (Task.saving_of_drawn? hid)
    have hf' := hcurrent j f hf (Task.saving_of_drawn? hid')
    exact h.apart i j e f id he hf (by omega) hid hid'

theorem Issued.start (dir : Path) (d : Disk) : Issued 0 ⟨[.open_ dir], d, []⟩ := by
  refine .of_numbered (fun store hs => ?_) (fun i e he => by simp at he) (.start _ d)
  rw [List.mem_singleton.mp hs]
  exact show (0 : Int) < 2 ^ 62 + 0 by decide

theorem Issued.accept (h : Issued n ⟨stores, d, errands⟩) {task : Task} {number : Nat}
    (hfresh : task.Fresh) (hnumber : number + 1 = stores.length) :
    Issued (n + 1) ⟨stores, d, errands ++ [⟨task, number, .idle⟩]⟩ := by
  refine .of_numbered (fun store hs => ?_) (fun i e he hsaving => ?_)
    (h.numbered.accept hfresh number)
  · have := h.bound store hs
    omega
  · rcases getElem?_concat_some he with he | ⟨-, rfl⟩
    · exact h.current i e he hsaving
    · exact hnumber

theorem Issued.move (h : Issued n ⟨stores, d, errands⟩) (hn : n < 2 ^ 62) {i : Nat}
    {e e' : Errand} {store store' : Store} (he : errands[i]? = some e)
    (hs : stores[e.store]? = some store) (hset : e.task.Settled store.dir D d)
    (hstep : Errand.Step (.oneStore dir) e store d e' store' d') :
    Issued (n + 1) ⟨stores.set e.store store', d', errands.set i e'⟩ := by
  have hbound := h.bound store (List.mem_of_getElem? hs)
  have hlast : store'.ids.last.toInt < 2 ^ 62 + (n + 1 : Nat) := by
    rcases hstep.draws with ⟨heq, -⟩ | ⟨now, hclock, -, heq, -⟩ <;> rw [heq]
    · omega
    · have hlate := hclock.2
      have hnext := store.ids.candidate_clockId hclock.1 (by omega) (by omega)
      show (store.ids.candidate (clockId now)).toInt < 2 ^ 62 + (n + 1 : Nat)
      omega
  refine .of_numbered (fun st hst => ?_) (fun j f hf hsaving => ?_)
    (h.numbered.move he hs hstep fun _ _ hgreatest => ?_)
  · rcases List.mem_or_eq_of_mem_set hst with hst | rfl
    · have := h.bound st hst
      omega
    · exact hlast
  · rw [show (stores.set e.store store').length = stores.length from List.length_set]
    rcases getElem?_set_some hf with ⟨-, rfl⟩ | ⟨-, hf⟩
    · rw [hstep.store_eq.1]
      exact h.current i e he (hstep.saving hset hsaving)
    · exact h.current j f hf hsaving
  · omega

theorem Issued.reopen (h : Issued n ⟨stores, d, errands⟩)
    (hidle : ∀ (i : Nat) (e : Errand), errands[i]? = some e → ¬ e.task.Saving) :
    Issued (n + 1) ⟨stores ++ [.open_ dir], d, errands⟩ := by
  refine .of_numbered (fun store hs => ?_) (fun i e he hsaving => ?_) (h.numbered.reopen _ d)
  · rcases List.mem_append.mp hs with hs | hs
    · have := h.bound store hs
      omega
    · rw [List.mem_singleton.mp hs, show (Store.open_ dir).ids.last.toInt = 0 from rfl]
      omega
  · exact absurd hsaving (hidle i e he)

/-- While there are greater numbers left, the ids of a store stay apart. -/
theorem Issued.step {d₀ : Disk} {ho : Orderly d₀ dir D} {w w' : World} (h : Issued n w)
    (hn : n < 2 ^ 62) (hup : (Upkeep.oneStore ho).Holds w)
    (hstep : World.Step (.oneStore dir) w w') : Issued (n + 1) w' := by
  cases hstep with
  | accept stores d errands task number hadmits => exact h.accept hadmits.1 hadmits.2
  | move stores d errands i e store e' store' d' he hs hmove =>
    exact h.move hn he hs (hup.settled he hs) hmove
  | reopen stores d errands config s d' hopen hstart =>
    obtain ⟨rfl, hstore⟩ := hup.start_eq hopen hstart
    rw [hstore]
    exact h.reopen hopen.2

/-- Nobody else works on the id that a request has drawn. -/
theorem Issued.alone {w : World} (h : Issued n w) {i : Nat} {e : Errand} {id : DiagramId}
    (he : w.errands[i]? = some e) (hid : e.task.drawn? = some id) : w.Alone i id :=
  fun j f hf hworks => h.apart j i f e id hf he (Task.drawn?_of_worksOn? hworks) hid

end Issued

end DiagramService
