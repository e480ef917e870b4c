import DiagramService.Proofs.Service.World

/-! What holds in every state of a world, whatever the order of its steps. The `Ledger` says that
what a request holds is there and that no two requests hold the same id. An `Upkeep` adds what else
is kept up by each step of a request, and then it holds after every run. -/

namespace DiagramService

/-! ## The ledger -/

/-- All stores keep their records at one place, and what requests hold there is theirs alone. -/
structure Ledger (D : Place) (w : World) : Prop where
  opens : ∀ store ∈ w.stores, w.disk.Opens store.dir D
  settled : ∀ (i : Nat) (e : Errand), w.errands[i]? = some e →
    ∃ store, w.stores[e.store]? = some store ∧ e.task.Settled store.dir D w.disk
  apart : ∀ (i j : Nat) (e e' : Errand) id, w.errands[i]? = some e → w.errands[j]? = some e' →
    e.task.held? = some id → e'.task.held? = some id → i = j

theorem Task.Settled.kept {dir : Path} {D : Place} {d d' : Disk} {task : Task}
    (h : task.Settled dir D d) (hopens : d'.Opens dir D)
    (hsource : ∀ id x, task.held? = some id → d.get? (id.sourceName :: D) = some x →
      d'.get? (id.sourceName :: D) = some x) : task.Settled dir D d' := by
  cases task with
  | save s phase =>
    refine ⟨hopens, h.proper, fun id hid => ?_⟩
    obtain ⟨content, time, hget, htext⟩ := h.source id hid
    exact ⟨content, time, hsource id _ hid hget, htext⟩
  | _ => exact trivial

/-- The source of a held id is a file. -/
theorem Task.Settled.held_get {dir : Path} {D : Place} {d : Disk} {task : Task} {id : DiagramId}
    (h : task.Settled dir D d) (hid : task.held? = some id) :
    ∃ content time, d.get? (id.sourceName :: D) = some (.file content time) := by
  cases task with
  | save s phase =>
    obtain ⟨content, time, hget, -⟩ := h.source id hid
    exact ⟨content, time, hget⟩
  | _ => cases hid

section Lists

variable {α : Type} {xs : List α} {i j : Nat} {x y : α}

/-- What is at a position after another one was set. -/
theorem getElem?_set_some (h : (xs.set i x)[j]? = some y) :
    j = i ∧ y = x ∨ j ≠ i ∧ xs[j]? = some y := by
  rw [List.getElem?_set] at h
  split at h
  · next hij =>
    split at h
    · exact .inl ⟨hij.symm, (Option.some.inj h).symm⟩
    · cases h
  · next hij => exact .inr ⟨fun h' => hij h'.symm, h⟩

/-- What is at a position after something was added at the end. -/
theorem getElem?_concat_some (h : (xs ++ [x])[j]? = some y) :
    xs[j]? = some y ∨ j = xs.length ∧ y = x := by
  rw [List.getElem?_append] at h
  split at h
  · exact .inl h
  · next hj =>
    obtain ⟨hlt, hy⟩ := List.getElem?_eq_some_iff.mp h
    simp only [List.length_cons, List.length_nil] at hlt
    refine .inr ⟨by omega, ?_⟩
    simpa using hy.symm

end Lists

section Ledger

variable {D : Place} {stores : List Store} {d d' : Disk} {errands : List Errand}

/-- A store keeps its directory while another, or itself, takes a step. -/
theorem store_set {number k : Nat} {store store' st : Store} (hs : stores[number]? = some store)
    (hdir : store'.dir = store.dir) (hst : stores[k]? = some st) :
    ∃ st', (stores.set number store')[k]? = some st' ∧ st'.dir = st.dir := by
  by_cases hk : k = number
  · subst hk
    rw [hs] at hst
    cases hst
    have hlt : k < stores.length := (List.getElem?_eq_some_iff.mp hs).1
    exact ⟨store', by simp [hlt], hdir⟩
  · exact ⟨st, by rw [List.getElem?_set_ne fun h => hk h.symm]; exact hst, rfl⟩

theorem Ledger.accept (h : Ledger D ⟨stores, d, errands⟩) {task : Task} {number : Nat}
    (hfresh : task.Fresh) (hnumber : number < stores.length) :
    Ledger D ⟨stores, d, errands ++ [⟨task, number, .idle⟩]⟩ := by
  refine ⟨h.opens, fun i e he => ?_, fun i j e e' id he he' hid hid' => ?_⟩
  · rcases getElem?_concat_some he with he | ⟨-, rfl⟩
    · exact h.settled i e he
    · exact ⟨stores[number], List.getElem?_eq_getElem hnumber,
        hfresh.settled (h.opens _ (List.getElem_mem hnumber))⟩
  · rcases getElem?_concat_some he with he | ⟨-, rfl⟩
    · rcases getElem?_concat_some he' with he' | ⟨-, rfl⟩
      · exact h.apart i j e e' id he he' hid hid'
      · rw [hfresh.held?] at hid'
        cases hid'
    · rw [hfresh.held?] at hid
      cases hid

theorem Ledger.move (h : Ledger D ⟨stores, d, errands⟩) {i : Nat} {e e' : Errand}
    {store store' : Store} (he : errands[i]? = some e) (hs : stores[e.store]? = some store)
    (hdir : store'.dir = store.dir) (hharm : e.Harmless D d e' d')
    (hset : e'.task.Settled store.dir D d') (hopens : ∀ st ∈ stores, d'.Opens st.dir D) :
    Ledger D ⟨stores.set e.store store', d', errands.set i e'⟩ := by
  -- a request that is not the one that moves does not hold what that one may touch
  have hother : ∀ j f id, j ≠ i → errands[j]? = some f → f.task.held? = some id →
      e.task.held? ≠ some id := fun j f id hji hf hid hid' =>
    hji (h.apart j i f e id hf he hid hid')
  -- what it holds is there, so no id that was just claimed is the same
  have hnew : ∀ j f id, j ≠ i → errands[j]? = some f → f.task.held? = some id →
      e'.task.held? ≠ some id := by
    intro j f id hji hf hid hid'
    rcases hharm.held with heq | heq | ⟨id', heq, hnone⟩ <;> rw [heq] at hid'
    · exact hother j f id hji hf hid hid'
    · cases hid'
    · cases hid'
      obtain ⟨st, -, hset'⟩ := h.settled j f hf
      obtain ⟨content, time, hget⟩ := hset'.held_get hid
      rw [show d.get? (id.sourceName :: D) = _ from hget] at hnone
      cases hnone
  refine ⟨fun st hst => ?_, fun j f hf => ?_, fun j k f g id hf hg hid hid' => ?_⟩
  · rcases List.mem_or_eq_of_mem_set hst with hst | rfl
    · exact hopens st hst
    · rw [hdir]
      exact hopens store (List.mem_of_getElem? hs)
  · rcases getElem?_set_some hf with ⟨-, rfl⟩ | ⟨hji, hf⟩
    · obtain ⟨st', hst', hdir'⟩ := store_set hs hdir hs
      rw [hharm.number]
      exact ⟨st', hst', by rw [hdir']; exact hset⟩
    · obtain ⟨st, hst, hset'⟩ := h.settled j f hf
      obtain ⟨st', hst', hdir'⟩ := store_set hs hdir hst
      refine ⟨st', hst', ?_⟩
      rw [hdir']
      exact hset'.kept (hopens st (List.mem_of_getElem? hst)) fun id x hid hget =>
        hharm.source id x (hother j f id hji hf hid) hget
  · rcases getElem?_set_some hf with ⟨rfl, rfl⟩ | ⟨hji, hfj⟩
    · rcases getElem?_set_some hg with ⟨rfl, rfl⟩ | ⟨hki, hgk⟩
      · rfl
      · exact absurd hid (hnew k g id hki hgk hid')
    · rcases getElem?_set_some hg with ⟨rfl, rfl⟩ | ⟨hki, hgk⟩
      · exact absurd hid' (hnew j f id hji hfj hid)
      · exact h.apart j k f g id hfj hgk hid hid'

/-- No request but one works on an id. -/
def World.Alone (w : World) (n : Nat) (id : DiagramId) : Prop :=
  ∀ (j : Nat) (f : Errand), w.errands[j]? = some f → f.task.worksOn? = some id → j = n

/-- Nobody else begins to work on an id that a request holds. -/
theorem World.Alone.move {n : Nat} {id : DiagramId} (h : World.Alone ⟨stores, d, errands⟩ n id)
    (hledger : Ledger D ⟨stores, d, errands⟩) {f : Errand} (hn : errands[n]? = some f)
    (hid : f.task.held? = some id) {i : Nat} {e e' : Errand} (he : errands[i]? = some e)
    (hharm : e.Harmless D d e' d') (stores' : List Store) :
    World.Alone ⟨stores', d', errands.set i e'⟩ n id := by
  intro j g hg hworks
  rcases getElem?_set_some hg with ⟨rfl, rfl⟩ | ⟨hji, hg⟩
  · rcases hharm.worksOn with heq | heq | ⟨id', heq, hnone⟩ <;> rw [heq] at hworks
    · exact h j e he hworks
    · cases hworks
    · cases hworks
      obtain ⟨st, -, hset⟩ := hledger.settled n f hn
      obtain ⟨content, time, hget⟩ := hset.held_get hid
      rw [show d.get? (id.sourceName :: D) = _ from hget] at hnone
      cases hnone
  · exact h j g hg hworks

/-- The text of a save that was successful is in its source. -/
theorem Ledger.saved {w : World} (h : Ledger D w) {i : Nat} {e : Errand} {s : Save}
    {record : SavedDiagram} (he : w.errands[i]? = some e)
    (htask : e.task = .save s (.done (.ok record))) :
    (∃ time, w.disk.get? (record.id.sourceName :: D) = some (.file (Utf8.encode s.text) time)) ∧
      w.disk.contentAt record.source = .ok (Utf8.encode s.text) := by
  obtain ⟨store, -, hset⟩ := h.settled i e he
  rw [htask] at hset
  obtain ⟨-, time, hget, hcontent⟩ := Save.Settled.saved hset
  exact ⟨⟨time, hget⟩, hcontent⟩

/-- The image of a save that was successful can be read while it is a file. -/
theorem Ledger.saved_image {w : World} (h : Ledger D w) {i : Nat} {e : Errand} {s : Save}
    {record : SavedDiagram} (he : w.errands[i]? = some e)
    (htask : e.task = .save s (.done (.ok record))) {content : Bytes} {time : Int}
    (hget : w.disk.get? (record.id.imageName :: D) = some (.file content time)) :
    w.disk.contentAt record.image = .ok content := by
  obtain ⟨store, -, hset⟩ := h.settled i e he
  rw [htask] at hset
  obtain ⟨hopens, ⟨hrecord, hs⟩, -⟩ := hset
  rw [hrecord] at hs ⊢
  exact hopens.contentAt_file record.id.imageName_ordinary (DiagramId.spelled_imageName hs) hget

/-- No two saves are successful with the same id. -/
theorem Ledger.saved_apart {w : World} (h : Ledger D w) {i j : Nat} {e e' : Errand} {s s' : Save}
    {record record' : SavedDiagram} (he : w.errands[i]? = some e) (he' : w.errands[j]? = some e')
    (htask : e.task = .save s (.done (.ok record)))
    (htask' : e'.task = .save s' (.done (.ok record'))) (hid : record.id = record'.id) : i = j :=
  h.apart i j e e' record.id he he' (by rw [htask]; rfl) (by rw [htask', hid]; rfl)

/-- A service that is started again has its directory already. -/
theorem start_eq {config : Config} {s : Service} (hopens : d.Opens config.saveDir D)
    (hstart : Service.start config d = (.ok s, d')) :
    d' = d ∧ s.store = .open_ config.saveDir := by
  have hsame := hopens.makeDirs
  unfold Service.start at hstart
  rcases hm : d.makeDirs config.saveDir with ⟨x | _, e⟩ <;> rw [hm] at hstart hsame
  · cases hstart
  · cases hstart
    exact ⟨hsame, rfl⟩

theorem Ledger.reopen (h : Ledger D ⟨stores, d, errands⟩) {config : Config} {s : Service}
    (hopens : d.Opens config.saveDir D) (hstart : Service.start config d = (.ok s, d')) :
    Ledger D ⟨stores ++ [s.store], d', errands⟩ := by
  obtain ⟨rfl, hstore⟩ := start_eq hopens hstart
  refine ⟨fun st hst => ?_, fun i e he => ?_, h.apart⟩
  · rcases List.mem_append.mp hst with hst | hst
    · exact h.opens st hst
    · rw [List.mem_singleton.mp hst, hstore]
      exact hopens
  · obtain ⟨st, hst, hset⟩ := h.settled i e he
    refine ⟨st, ?_, hset⟩
    rw [List.getElem?_append_left (List.getElem?_eq_some_iff.mp hst).1]
    exact hst

end Ledger

/-! ## Upkeep -/

/-- What is kept up in a world besides the ledger: of the paths of the stores, of the disk and of
each request. -/
structure Upkeep (R : Rules) (D : Place) where
  path : Path → Prop
  disk : Disk → Prop
  task : Task → Prop
  confined : R.Confined
  opens : ∀ {p d}, path p → disk d → d.Opens p D
  admits : ∀ {w t number}, R.admits w t number →
    t.Fresh ∧ number < w.stores.length ∧ task t
  reopens : ∀ {w config}, (∀ store ∈ w.stores, path store.dir) → R.reopens w config →
    path config.saveDir
  step : ∀ {e store d e' store' d'}, Errand.Step R e store d e' store' d' → disk d → task e.task →
    e.task.Settled store.dir D d → disk d' ∧ task e'.task
  render : ∀ {r phase number work store d e' store' d'},
    Errand.Step R ⟨.render r phase, number, work⟩ store d e' store' d' → disk d →
    task (.render r phase) → Errand.Harmless D ⟨.render r phase, number, work⟩ d e' d'

namespace Upkeep

variable {R : Rules} {D : Place}

/-- What is kept up holds. -/
structure Holds (U : Upkeep R D) (w : World) : Prop where
  ledger : Ledger D w
  paths : ∀ store ∈ w.stores, U.path store.dir
  disk : U.disk w.disk
  tasks : ∀ (i : Nat) (e : Errand), w.errands[i]? = some e → U.task e.task

variable {U : Upkeep R D} {w w' : World} {e e' : Errand} {store store' : Store} {d d' : Disk}

theorem start {stores : List Store} (hpaths : ∀ store ∈ stores, U.path store.dir)
    (hdisk : U.disk d) : U.Holds ⟨stores, d, []⟩ :=
  ⟨⟨fun store hs => U.opens (hpaths store hs) hdisk, fun i e he => by simp at he,
    fun i j e e' id he => by simp at he⟩, hpaths, hdisk, fun i e he => by simp at he⟩

/-- A step of a request does no harm to others and leaves the request settled. -/
theorem harmless (h : Errand.Step R e store d e' store' d') (hdisk : U.disk d)
    (htask : U.task e.task) (hset : e.task.Settled store.dir D d) :
    e.Harmless D d e' d' ∧ store'.dir = store.dir ∧
      (d'.Opens store.dir D → e'.task.Settled store.dir D d') := by
  obtain ⟨task, number, work⟩ := e
  cases task with
  | save s phase =>
    exact ⟨h.harmless_save U.confined hset, h.dir_save hset, h.settled_save U.confined hset⟩
  | render r phase =>
    obtain ⟨rfl, -, phase', heq⟩ := h.render
    exact ⟨U.render h hdisk htask, rfl, fun _ => by rw [heq]; exact trivial⟩
  | list phase =>
    obtain ⟨-, rfl, -, hstill⟩ := h.still trivial
    exact ⟨h.harmless_still trivial, rfl, fun _ => hstill.settled _ _ _⟩
  | answered response =>
    obtain ⟨-, rfl, -, hstill⟩ := h.still trivial
    exact ⟨h.harmless_still trivial, rfl, fun _ => hstill.settled _ _ _⟩

/-- The store and the state of a request that takes a step. -/
theorem Holds.settled {stores : List Store} {errands : List Errand}
    (h : U.Holds ⟨stores, d, errands⟩) {i : Nat} (he : errands[i]? = some e)
    (hs : stores[e.store]? = some store) : e.task.Settled store.dir D d := by
  obtain ⟨st, hst, hset⟩ := h.ledger.settled i e he
  rw [show stores[e.store]? = some store from hs] at hst
  cases hst
  exact hset

theorem Holds.harmless {stores : List Store} {errands : List Errand}
    (h : U.Holds ⟨stores, d, errands⟩) {i : Nat} (he : errands[i]? = some e)
    (hs : stores[e.store]? = some store) (hstep : Errand.Step R e store d e' store' d') :
    e.Harmless D d e' d' :=
  (Upkeep.harmless hstep h.disk (h.tasks i e he) (h.settled he hs)).1

/-- A service that is started again finds its directory. -/
theorem Holds.start_eq {stores : List Store} {errands : List Errand}
    (h : U.Holds ⟨stores, d, errands⟩) {config : Config} {s : Service}
    (hopen : R.reopens ⟨stores, d, errands⟩ config)
    (hstart : Service.start config d = (.ok s, d')) :
    d' = d ∧ s.store = .open_ config.saveDir :=
  DiagramService.start_eq (U.opens (U.reopens h.paths hopen) h.disk) hstart

theorem Holds.step (h : U.Holds w) (hstep : World.Step R w w') : U.Holds w' := by
  cases hstep with
  | accept stores d errands task number hadmits =>
    obtain ⟨hfresh, hnumber, htask⟩ := U.admits hadmits
    refine ⟨h.ledger.accept hfresh hnumber, h.paths, h.disk, fun i e he => ?_⟩
    rcases getElem?_concat_some he with he | ⟨-, rfl⟩
    · exact h.tasks i e he
    · exact htask
  | move stores d errands i e store e' store' d' he hs hmove =>
    have hset := h.settled he hs
    obtain ⟨hharm, hdir, hset'⟩ := U.harmless hmove h.disk (h.tasks i e he) hset
    obtain ⟨hdisk, htask⟩ := U.step hmove h.disk (h.tasks i e he) hset
    have hopens : ∀ st ∈ stores, d'.Opens st.dir D := fun st hst => U.opens (h.paths st hst) hdisk
    have hmem := List.mem_of_getElem? hs
    refine ⟨h.ledger.move he hs hdir hharm (hset' (hopens store hmem)) hopens, fun st hst => ?_,
      hdisk, fun j f hf => ?_⟩
    · rcases List.mem_or_eq_of_mem_set hst with hst | rfl
      · exact h.paths st hst
      · rw [hdir]
        exact h.paths store hmem
    · rcases getElem?_set_some hf with ⟨rfl, rfl⟩ | ⟨-, hf⟩
      · exact htask
      · exact h.tasks j f hf
  | reopen stores d errands config s d' hopen hstart =>
    have hpath := U.reopens h.paths hopen
    have hopens := U.opens hpath h.disk
    obtain ⟨rfl, hs⟩ := DiagramService.start_eq hopens hstart
    refine ⟨h.ledger.reopen hopens hstart, fun st hst => ?_, h.disk, h.tasks⟩
    rcases List.mem_append.mp hst with hst | hst
    · exact h.paths st hst
    · rw [List.mem_singleton.mp hst, hs]
      exact hpath

theorem Holds.run (h : U.Holds w) {n : Nat} (hrun : World.Run R n w w') : U.Holds w' :=
  hrun.keeps (fun _ _ hs h => h.step hs) h

end Upkeep

end DiagramService
