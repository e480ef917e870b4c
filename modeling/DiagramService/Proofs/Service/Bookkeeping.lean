import DiagramService.Proofs.Diagram.IdSource
import DiagramService.Proofs.Service.SoleStore

/-! What one store and its directory tell of the saves that go on. An id that a save has marked is
pending, no two saves ever have the same id, and a source is in the directory only if it was there
at the start or a save holds it. -/

namespace DiagramService

/-! ## Steps of a request -/

section Step

variable {R : Rules} {D : Place} {d₀ : Disk} {e e' : Errand} {store store' : Store} {d d' : Disk}
  {id : DiagramId}

/-- The next id of the store is the only one that a request comes to bear. -/
theorem Errand.Step.bears (h : Errand.Step R e store d e' store' d')
    (hset : e.task.Settled store.dir D d) :
    store'.ids = store.ids ∧ (e'.task.bears? = e.task.bears? ∨ e'.task.bears? = none) ∨
    ∃ now, R.clock now ∧ store'.ids = ⟨store.ids.candidate (clockId now)⟩ ∧
      e'.task.bears? = some ⟨store.ids.candidate (clockId now)⟩ := by
  obtain ⟨task, number, work⟩ := e
  cases task with
  | save s phase =>
    cases h with
    | advance _ _ _ _ _ endings now _ hclock =>
      exact ((Save.Settled.advance hset now).bears hset.proper).imp_right fun h => ⟨now, hclock, h⟩
    | finish _ _ _ _ _ source outcome hwait =>
      obtain ⟨record, rfl, rfl⟩ := Save.eq_run_of_waiting? hwait
      have hworks := Save.worksOn?_hear_run s record outcome
      exact .inl ⟨rfl, .inl
        (Save.Phase.bears?_of_drawn? (Save.Phase.drawn?_of_worksOn? hworks))⟩
    | _ => exact .inl ⟨rfl, .inl rfl⟩
  | _ => cases h <;> exact .inl ⟨rfl, .inl rfl⟩

theorem Errand.Step.engaged (h : Errand.Step R e store d e' store' d')
    (hset : e.task.Settled store.dir D d) (he : e.task.Engaged id) : e'.task.Engaged id := by
  obtain ⟨task, number, work⟩ := e
  cases task with
  | save s phase =>
    cases h with
    | advance _ _ _ _ _ endings now => exact (Save.Settled.advance hset now).engaged hset.proper he
    | finish _ _ _ _ _ source outcome hwait =>
      obtain ⟨record, rfl, rfl⟩ := Save.eq_run_of_waiting? hwait
      obtain rfl : record.id = id := he
      exact Save.engaged_hear_run s record outcome
    | _ => exact he
  | _ => exact he.elim

/-- A source that is there after a step is held by the request, or it was there and not held. -/
theorem Errand.Step.source (h : Errand.Step .shared e store d e' store' d')
    (hsharing : Sharing d₀ D e.task) (hset : e.task.Settled store.dir D d)
    (hget : d'.get? (id.sourceName :: D) ≠ none) : e'.task.held? = some id ∨
      e.task.held? ≠ some id ∧ d.get? (id.sourceName :: D) ≠ none := by
  have hstill : e.task.Still → e.task.held? ≠ some id ∧ d.get? (id.sourceName :: D) ≠ none := by
    intro hstill
    obtain ⟨rfl, -⟩ := h.still hstill
    rw [hstill.held?]
    exact ⟨nofun, hget⟩
  -- a renderer begins, works and ends without the source being touched
  have hsame : e'.task.held? = e.task.held? → d'.get? (id.sourceName :: D) =
      d.get? (id.sourceName :: D) → e'.task.held? = some id ∨
        e.task.held? ≠ some id ∧ d.get? (id.sourceName :: D) ≠ none := by
    intro hheld hdisk
    rw [hdisk] at hget
    by_cases hid : e.task.held? = some id
    · exact .inl (hheld.trans hid)
    · exact .inr ⟨hid, hget⟩
  obtain ⟨task, number, work⟩ := e
  cases task with
  | save s phase =>
    cases h with
    | advance _ _ _ _ _ endings now =>
      exact (Save.Settled.advance hset now).source hset.proper hget
    | begin => exact hsame rfl rfl
    | act _ _ given _ _ source _ hwait hact =>
      obtain ⟨id', rfl, hoff⟩ :=
        Save.agreesOff_of_acts Rules.shared_confined hset hwait hact
      exact hsame rfl (hoff.get _ (Save.source_ne_image D id id'))
    | finish _ _ given _ _ source outcome hwait =>
      obtain ⟨record, rfl, rfl⟩ := Save.eq_run_of_waiting? hwait
      exact hsame (Save.held?_hear_run s record outcome) rfl
  | render r phase => exact absurd rfl (hsharing.noRender r phase)
  | list phase => exact .inr (hstill trivial)
  | answered response => exact .inr (hstill trivial)

/-- A step changes nothing but the places of records. -/
theorem Errand.Step.agreesOff (h : Errand.Step .shared e store d e' store' d')
    (hsharing : Sharing d₀ D e.task) (hset : e.task.Settled store.dir D d) :
    Disk.AgreesOff (fun q => ∃ id, PlaceOf D id q) d d' := by
  obtain ⟨task, number, work⟩ := e
  cases task with
  | save s phase =>
    exact (h.agreesOff_save Rules.shared_confined hset).mono fun q hq => hq.placeOf
  | render r phase => exact absurd rfl (hsharing.noRender r phase)
  | list phase =>
    obtain ⟨rfl, -⟩ := h.still trivial
    exact .refl _ d'
  | answered response =>
    obtain ⟨rfl, -⟩ := h.still trivial
    exact .refl _ d'

end Step

/-! ## The ids of a store -/

/-- No two requests have the same id, all ids have been issued, and those that are marked are
pending. -/
structure Booked (n : Nat) (store : Store) (errands : List Errand) : Prop where
  bound : store.ids.last.toInt < 2 ^ 62 + n
  issued : ∀ (i : Nat) (e : Errand) (id : DiagramId), errands[i]? = some e →
    e.task.bears? = some id → id.value.toInt ≤ store.ids.last.toInt
  apart : ∀ (i j : Nat) (e e' : Errand) (id : DiagramId), errands[i]? = some e →
    errands[j]? = some e' → e.task.bears? = some id → e'.task.bears? = some id → i = j
  pending : ∀ (i : Nat) (e : Errand) (id : DiagramId), errands[i]? = some e →
    e.task.marked? = some id → store.isPending id = true

/-- An id has been issued, and only one request can have it. -/
structure Owned (i : Nat) (id : DiagramId) (store : Store) (errands : List Errand) : Prop where
  issued : id.value.toInt ≤ store.ids.last.toInt
  only : ∀ (j : Nat) (f : Errand), errands[j]? = some f → f.task.bears? = some id → j = i

section Booked

variable {D : Place} {n : Nat} {store store' : Store} {errands : List Errand} {d d' : Disk}
  {i : Nat} {e e' : Errand} {id : DiagramId}

theorem Booked.owned (h : Booked n store errands) (he : errands[i]? = some e)
    (hid : e.task.bears? = some id) : Owned i id store errands :=
  ⟨h.issued i e id he hid, fun j f hf hid' => h.apart j i f e id hf he hid' hid⟩

theorem Booked.accept (h : Booked n store errands) {task : Task} {number : Nat}
    (hfresh : task.Fresh) : Booked (n + 1) store (errands ++ [⟨task, number, .idle⟩]) := by
  have hold : ∀ (i : Nat) (e : Errand) id, (errands ++ [⟨task, number, .idle⟩])[i]? = some e →
      e.task.bears? = some id → errands[i]? = some e := by
    intro i e id he hid
    rcases getElem?_concat_some he with he | ⟨-, rfl⟩
    · exact he
    · rw [hfresh.bears?] at hid
      cases hid
  refine ⟨?_, fun i e id he hid => ?_, fun i j e e' id he he' hid hid' => ?_,
    fun i e id he hid => ?_⟩
  · have := h.bound
    omega
  · exact h.issued i e id (hold i e id he hid) hid
  · exact h.apart i j e e' id (hold i e id he hid) (hold j e' id he' hid') hid hid'
  · exact h.pending i e id (hold i e id he (Task.bears?_of_marked? hid)) hid

theorem Owned.accept (h : Owned i id store errands) {task : Task} {number : Nat}
    (hfresh : task.Fresh) : Owned i id store (errands ++ [⟨task, number, .idle⟩]) := by
  refine ⟨h.issued, fun j f hf hid => ?_⟩
  rcases getElem?_concat_some hf with hf | ⟨-, rfl⟩
  · exact h.only j f hf hid
  · rw [hfresh.bears?] at hid
    cases hid

/-- The ids of a store only ever grow while the clock is in its range, and a request that comes to
bear an id has a new one. -/
theorem Booked.grows (h : Booked n store errands) (hn : n < 2 ^ 62)
    (hset : e.task.Settled store.dir D d)
    (hstep : Errand.Step .sole e store d e' store' d') :
    store.ids.last.toInt ≤ store'.ids.last.toInt ∧
    store'.ids.last.toInt < 2 ^ 62 + (n + 1 : Nat) ∧
    ∀ id, e'.task.bears? = some id → e.task.bears? = some id ∨
      store.ids.last.toInt < id.value.toInt ∧ id.value.toInt ≤ store'.ids.last.toInt := by
  have hbound := h.bound
  rcases hstep.bears hset with ⟨heq, hbears⟩ | ⟨now, hclock, heq, hbears⟩
  · rw [heq]
    refine ⟨Int.le_refl _, by omega, fun id hid => ?_⟩
    rcases hbears with hsame | hnone
    · exact .inl (hsame ▸ hid)
    · rw [hnone] at hid
      cases hid
  · have hhigh := hclock.2
    have hnext := store.ids.candidate_clockId hclock.1 (by omega) (by omega)
    rw [heq]
    simp only
    refine ⟨by omega, by omega, fun id hid => .inr ?_⟩
    rw [hbears] at hid
    cases hid
    simp only
    omega

theorem Owned.move (h : Owned i id store errands) (hbooked : Booked n store errands)
    (hn : n < 2 ^ 62) {j : Nat} (he : errands[j]? = some e)
    (hset : e.task.Settled store.dir D d)
    (hstep : Errand.Step .sole e store d e' store' d') :
    Owned i id store' (errands.set j e') := by
  obtain ⟨hle, -, hnew⟩ := hbooked.grows hn hset hstep
  have hissued := h.issued
  refine ⟨by omega, fun k f hf hid => ?_⟩
  rcases getElem?_set_some hf with ⟨rfl, rfl⟩ | ⟨-, hf⟩
  · rcases hnew id hid with hold | ⟨hlt, -⟩
    · exact h.only k e he hold
    · omega
  · exact h.only k f hf hid

theorem Booked.move (h : Booked n store errands) (hn : n < 2 ^ 62) (he : errands[i]? = some e)
    (hset : e.task.Settled store.dir D d)
    (hstep : Errand.Step .sole e store d e' store' d') :
    Booked (n + 1) store' (errands.set i e') := by
  obtain ⟨hle, hbound, hnew⟩ := h.grows hn hset hstep
  -- what the request bears after the step is not what another one bears
  have hother : ∀ (j : Nat) (f : Errand) (id : DiagramId), j ≠ i → errands[j]? = some f →
      f.task.bears? = some id → e'.task.bears? ≠ some id := by
    intro j f id hji hf hid hid'
    rcases hnew id hid' with hold | ⟨hlt, -⟩
    · exact hji (h.apart j i f e id hf he hid hold)
    · have := h.issued j f id hf hid
      omega
  refine ⟨hbound, fun j f id hf hid => ?_, fun j k f g id hf hg hid hid' => ?_,
    fun j f id hf hid => ?_⟩
  · rcases getElem?_set_some hf with ⟨-, rfl⟩ | ⟨-, hf⟩
    · rcases hnew id hid with hold | ⟨-, hlast⟩
      · have := h.issued i e id he hold
        omega
      · exact hlast
    · have := h.issued j f id hf hid
      omega
  · rcases getElem?_set_some hf with ⟨rfl, rfl⟩ | ⟨hji, hfj⟩
    · rcases getElem?_set_some hg with ⟨rfl, rfl⟩ | ⟨hki, hgk⟩
      · rfl
      · exact absurd hid (hother k g id hki hgk hid')
    · rcases getElem?_set_some hg with ⟨rfl, rfl⟩ | ⟨hki, hgk⟩
      · exact absurd hid' (hother j f id hji hfj hid)
      · exact h.apart j k f g id hfj hgk hid hid'
  · -- a step unmarks no id but the one of its own request
    rcases getElem?_set_some hf with ⟨rfl, rfl⟩ | ⟨hji, hfj⟩
    · rcases hstep.marks with ⟨hsame, hmarked⟩ | ⟨id', -, hsome, rfl⟩ | ⟨id', -, hnone, -⟩
      · rw [Store.isPending, hsame]
        exact h.pending j e id he (hmarked ▸ hid)
      · rw [hsome] at hid
        cases hid
        exact Store.isPending_mark_iff.mpr (.inl rfl)
      · rw [hnone] at hid
        cases hid
    · have hold := h.pending j f id hfj hid
      rcases hstep.marks with ⟨hsame, -⟩ | ⟨id', -, -, rfl⟩ | ⟨id', hsome, -, rfl⟩
      · rwa [Store.isPending, hsame]
      · exact Store.isPending_mark_iff.mpr (.inr hold)
      · refine Store.isPending_unmark_iff.mpr ⟨fun heq => hji ?_, hold⟩
        subst heq
        exact h.apart j i f e id hfj he (Task.bears?_of_marked? hid) (Task.bears?_of_marked? hsome)

end Booked

/-! ## The sources in a directory -/

/-- What is in the directory of a store, by what was there at the start and by what goes on. -/
structure Sourced (d₀ : Disk) (D : Place) (w : World) : Prop where
  agreesOff : Disk.AgreesOff (fun q => ∃ id, PlaceOf D id q) d₀ w.disk
  source : ∀ id : DiagramId, w.disk.get? (id.sourceName :: D) ≠ none →
    d₀.get? (id.sourceName :: D) ≠ none ∨
      ∃ (j : Nat) (f : Errand), w.errands[j]? = some f ∧ f.task.held? = some id
  fresh : ∀ (i : Nat) (e : Errand) (id : DiagramId), w.errands[i]? = some e →
    e.task.worksOn? = some id → d₀.get? (id.sourceName :: D) = none

section Sourced

variable {d₀ : Disk} {D : Place} {w w' : World}

theorem Sourced.start (stores : List Store) (d : Disk) (D : Place) :
    Sourced d D ⟨stores, d, []⟩ :=
  ⟨.refl _ d, fun _ hget => .inl hget, fun i e id he => by simp at he⟩

theorem Sourced.accept {stores : List Store} {d : Disk} {errands : List Errand}
    (h : Sourced d₀ D ⟨stores, d, errands⟩) {task : Task} {number : Nat} (hfresh : task.Fresh) :
    Sourced d₀ D ⟨stores, d, errands ++ [⟨task, number, .idle⟩]⟩ := by
  refine ⟨h.agreesOff, fun id hget => ?_, fun i e id he hid => ?_⟩
  · refine (h.source id hget).imp_right ?_
    rintro ⟨j, f, hf, hid⟩
    exact ⟨j, f, (List.getElem?_append_left (List.getElem?_eq_some_iff.mp hf).1).trans hf, hid⟩
  · rcases getElem?_concat_some he with he | ⟨-, rfl⟩
    · exact h.fresh i e id he hid
    · rw [hfresh.worksOn?] at hid
      cases hid

theorem Sourced.move {stores : List Store} {d d' : Disk} {errands : List Errand}
    (h : Sourced d₀ D ⟨stores, d, errands⟩)
    (hup : (Upkeep.shared d₀ D).Holds ⟨stores, d, errands⟩) {i : Nat} {e e' : Errand}
    {store store' : Store} (he : errands[i]? = some e) (hs : stores[e.store]? = some store)
    (hmove : Errand.Step .shared e store d e' store' d') :
    Sourced d₀ D ⟨stores.set e.store store', d', errands.set i e'⟩ := by
  have hset := hup.settled he hs
  have hsharing : Sharing d₀ D e.task := hup.tasks i e he
  have hlt := (List.getElem?_eq_some_iff.mp he).1
  refine ⟨h.agreesOff.trans (hmove.agreesOff hsharing hset), fun id hget => ?_,
    fun j f id hf hid => ?_⟩
  · rcases hmove.source hsharing hset hget with hid | ⟨hid, hold⟩
    · exact .inr ⟨i, e', List.getElem?_set_self hlt, hid⟩
    · refine (h.source id hold).imp_right ?_
      rintro ⟨j, f, hf, hid'⟩
      -- the holder is not the request that moves, as that did not hold the id
      have hji : i ≠ j := by
        rintro rfl
        rw [show errands[i]? = some f from hf] at he
        cases he
        exact hid hid'
      exact ⟨j, f, (List.getElem?_set_ne hji).trans hf, hid'⟩
  · rcases getElem?_set_some hf with ⟨-, rfl⟩ | ⟨-, hf⟩
    · rcases (hup.harmless he hs hmove).worksOn with heq | heq | ⟨id', heq, hnone⟩ <;>
        rw [heq] at hid
      · exact h.fresh i e id he hid
      · cases hid
      · cases hid
        exact get_none_of_loose hup.disk hnone
    · exact h.fresh j f id hf hid

theorem Sourced.step (h : Sourced d₀ D w) (hup : (Upkeep.shared d₀ D).Holds w)
    (hstep : World.Step .sole w w') : Sourced d₀ D w' := by
  cases hstep with
  | accept stores d errands task number hadmits => exact h.accept hadmits.1
  | move stores d errands i e store e' store' d' he hs hmove => exact h.move hup he hs hmove.shared
  | reopen stores d errands config s d' hopen => exact hopen.elim

end Sourced

/-! ## The store and its directory -/

/-- All that holds of a single store after some steps. -/
structure Sole (d₀ : Disk) (D : Place) (dir : Path) (n : Nat) (w : World) : Prop where
  shared : (Upkeep.shared d₀ D).Holds w
  sourced : Sourced d₀ D w
  booked : ∃ store, w.stores = [store] ∧ store.dir = dir ∧ Booked n store w.errands

/-- Only one request can have an id. -/
def World.Owns (w : World) (i : Nat) (id : DiagramId) : Prop :=
  ∃ store, w.stores = [store] ∧ Owned i id store w.errands

section Sole

variable {d₀ : Disk} {D : Place} {dir : Path} {n : Nat} {w w' : World} {i : Nat}
  {id : DiagramId} {e : Errand}

theorem Sole.start {store : Store} (hsteady : Steady d₀ D store.dir)
    (hlast : store.ids.last.toInt < 2 ^ 62) : Sole d₀ D store.dir 0 ⟨[store], d₀, []⟩ := by
  refine ⟨Upkeep.start (fun st hst => ?_) (.refl _ d₀), .start _ _ _, store, rfl, rfl, ?_⟩
  · rw [List.mem_singleton.mp hst]
    exact hsteady
  · exact ⟨by omega, fun i e id he => by simp at he, fun i j e e' id he => by simp at he,
      fun i e id he => by simp at he⟩

/-- A step keeps all that, and an id stays with the request that has it. -/
theorem Sole.step (h : Sole d₀ D dir n w) (hn : n < 2 ^ 62) (hstep : World.Step .sole w w') :
    Sole d₀ D dir (n + 1) w' ∧ ∀ i id, w.Owns i id → w'.Owns i id := by
  obtain ⟨hshared, hsourced, store, hstores, hdir, hbooked⟩ := h
  have hshared' := hshared.step hstep.shared
  have hsourced' := hsourced.step hshared hstep
  cases hstep with
  | accept stores d errands task number hadmits =>
    obtain rfl : stores = [store] := hstores
    refine ⟨⟨hshared', hsourced', store, rfl, hdir, hbooked.accept hadmits.1⟩, ?_⟩
    rintro i id ⟨_, ⟨⟩, howned⟩
    exact ⟨store, rfl, howned.accept hadmits.1⟩
  | move stores d errands j e st e' store' d' he hs hmove =>
    obtain rfl : stores = [store] := hstores
    obtain ⟨hnumber, rfl⟩ : e.store = 0 ∧ store = st := by
      cases hk : e.store with
      | zero =>
        rw [hk] at hs
        exact ⟨rfl, Option.some.inj hs⟩
      | succ k => simp [hk] at hs
    have hset := hshared.settled he hs
    have hstores' : [store].set e.store store' = [store'] := by
      rw [hnumber]
      rfl
    refine ⟨⟨hshared', hsourced', store', hstores', hmove.store_eq.2.trans hdir,
      hbooked.move hn he hset hmove⟩, ?_⟩
    rintro i id ⟨_, ⟨⟩, howned⟩
    exact ⟨store', hstores', howned.move hbooked hn he hset hmove⟩
  | reopen stores d errands config s d' hopen => exact hopen.elim

/-- So does a run. -/
theorem Sole.run (h : Sole d₀ D dir n w) {k : Nat} (hrun : World.Run .sole k w w')
    (hn : n + k ≤ 2 ^ 62) :
    Sole d₀ D dir (n + k) w' ∧ ∀ i id, w.Owns i id → w'.Owns i id := by
  induction hrun with
  | refl w => exact ⟨h, fun _ _ howns => howns⟩
  | tail _ hs ih =>
    obtain ⟨h', howns⟩ := ih h (by omega)
    obtain ⟨h'', howns'⟩ := h'.step (by omega) hs
    exact ⟨h'', fun i id h => howns' i id (howns i id h)⟩

theorem Sole.owns (h : Sole d₀ D dir n w) (he : w.errands[i]? = some e)
    (hid : e.task.bears? = some id) : w.Owns i id := by
  obtain ⟨-, -, store, hstores, -, hbooked⟩ := h
  exact ⟨store, hstores, hbooked.owned he hid⟩

theorem World.Owns.eq (h : w.Owns i id) {j : Nat} {f : Errand} (hf : w.errands[j]? = some f)
    (hid : f.task.bears? = some id) : j = i := by
  obtain ⟨store, -, howned⟩ := h
  exact howned.only j f hf hid

/-- A request that has claimed an id stays with it. -/
theorem Sole.engaged (h : Sole d₀ D dir n w) (hstep : World.Step .sole w w')
    (he : w.errands[i]? = some e) (hid : e.task.Engaged id) :
    ∃ e', w'.errands[i]? = some e' ∧ e'.task.Engaged id := by
  have hshared := h.shared
  have hlt := (List.getElem?_eq_some_iff.mp he).1
  cases hstep with
  | accept stores d errands task number =>
    exact ⟨e, (List.getElem?_append_left hlt).trans he, hid⟩
  | move stores d errands j f st f' store' d' hf hs hmove =>
    by_cases hji : j = i
    · subst hji
      rw [show errands[j]? = some f from hf] at he
      cases he
      have hset := hshared.settled hf hs
      exact ⟨f', List.getElem?_set_self hlt, hmove.engaged hset hid⟩
    · exact ⟨e, (List.getElem?_set_ne hji).trans he, hid⟩
  | reopen stores d errands config s d' hopen => exact hopen.elim

theorem Sole.engaged_run (h : Sole d₀ D dir n w) {k : Nat} (hrun : World.Run .sole k w w')
    (hn : n + k ≤ 2 ^ 62) (he : w.errands[i]? = some e) (hid : e.task.Engaged id) :
    ∃ e', w'.errands[i]? = some e' ∧ e'.task.Engaged id := by
  induction hrun with
  | refl w => exact ⟨e, he, hid⟩
  | tail hrun hs ih =>
    obtain ⟨e', he', hid'⟩ := ih h (by omega) he
    obtain ⟨h', -⟩ := h.run hrun (by omega)
    exact h'.engaged hs he' hid'

end Sole

end DiagramService
