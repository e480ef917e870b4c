import Mathlib
import DiagramService.Proofs.Service.Drawn
import DiagramService.Proofs.Service.Marks
import DiagramService.Proofs.Store.Operations

/-! The pending ids of a store mirror the saves that have their ids marked. As long as there are
greater numbers an id is drawn once, so a save that unmarks its id takes it from nobody else. None
of this depends on the disk, on what the renderers do or on how their runs end. -/

namespace DiagramService

/-! ## Runs without overflow -/

/-- Requests begin fresh. Whatever else may come. -/
def Rules.unruly : Rules where
  admits _ task _ := task.Fresh
  reopens _ _ := True
  clock _ := True
  draws _ _ _ := True
  acts _ _ _ := True
  ends _ _ _ _ := True

/-- A save draws an id in a step, although its store has issued the greatest number. -/
def World.Overflows (w w' : World) : Prop :=
  ∃ (i : Nat) (e e' : Errand) (store : Store), w.errands[i]? = some e ∧
    w'.errands[i]? = some e' ∧ w.stores[e.store]? = some store ∧ e.task.drawn? = none ∧
    e'.task.drawn? ≠ none ∧ store.ids.last.toInt = 2 ^ 63 - 1

/-- A world is reached without an overflow of ids. -/
def World.Reaches : World → World → Prop :=
  Relation.ReflTransGen fun w w' => World.Step .unruly w w' ∧ ¬ w.Overflows w'

/-! ## Steps of a request -/

namespace Task

/-- The id of the record on whose files the next operation of a save is. -/
def operatesOn? : Task → Option DiagramId
  | .save _ phase => phase.operatesOn?
  | _ => none

theorem drawn?_of_marked? {task : Task} {id : DiagramId} (h : task.marked? = some id) :
    task.drawn? = some id := by
  cases task with
  | save s phase => exact Save.Phase.drawn?_of_marked? h
  | _ => cases h

theorem marked?_of_operatesOn? {task : Task} {id : DiagramId} (h : task.operatesOn? = some id) :
    task.marked? = some id := by
  cases task with
  | save s phase => exact Save.Phase.marked?_of_operatesOn? h
  | _ => cases h

/-- A save in progress has the id marked that it has claimed. -/
theorem Engaged.marked? {task : Task} {id : DiagramId} (h : task.Engaged id)
    (hsaving : task.Saving) : task.marked? = some id := by
  cases task with
  | save s phase => exact Save.Phase.Engaged.marked? h hsaving
  | _ => exact h.elim

end Task

section Step

variable {R : Rules} {e e' : Errand} {store store' : Store} {d d' : Disk}

/-- An operation on the files of a record leaves its id marked, and the pending ids as they are. -/
theorem Errand.Step.operation (h : Errand.Step R e store d e' store' d') {id : DiagramId}
    (hid : e.task.operatesOn? = some id) :
    e'.task.marked? = some id ∧ store'.pending = store.pending := by
  have hold := Task.marked?_of_operatesOn? hid
  have hnew : e'.task.marked? = some id := by
    cases h with
    | advance task number work _ _ endings now =>
      cases task with
      | save s phase => exact s.marked?_step hid store d now
      | _ => cases hid
    | finish task _ _ _ _ source outcome hwait =>
      cases task with
      | save s phase => exact (s.marked?_hear hwait outcome).trans hold
      | _ => cases hid
    | _ => exact hold
  refine ⟨hnew, ?_⟩
  rcases h.marks with ⟨hpending, -⟩ | ⟨id', hnone, -⟩ | ⟨id', -, hnone, -⟩
  · exact hpending
  · rw [hnone] at hold
    cases hold
  · rw [hnone] at hnew
    cases hnew

/-- A save that makes a source has claimed the id of it. -/
theorem Errand.Step.created (h : Errand.Step R e store d e' store' d') {s : Save} {tries : Nat}
    {record : SavedDiagram} (htask : e.task = .save s (.claim tries record)) :
    d' = d ∨ e'.task.Engaged record.id := by
  cases h with
  | advance task number work _ _ endings now =>
    cases htask
    rcases Save.claim_made tries record d now with hsame | hclaimed
    · exact .inl hsame
    · right
      show (Save.claim tries record d now).1.Engaged record.id
      rw [hclaimed]
      rfl
  | begin => exact .inl rfl
  | act _ _ _ _ _ source _ hwait =>
    cases htask
    cases hwait
  | finish => exact .inl rfl

/-- A save stays with the id that it has claimed until it is over. -/
theorem Errand.Step.stays_engaged (h : Errand.Step R e store d e' store' d') {id : DiagramId}
    (hid : e.task.Engaged id) (hsaving : e'.task.Saving) : e'.task.Engaged id := by
  cases h with
  | advance task number work _ _ endings now =>
    cases task with
    | save s phase => exact s.engaged_step hid store d now hsaving
    | _ => exact hid.elim
  | finish task _ _ _ _ source outcome hwait =>
    cases task with
    | save s phase =>
      obtain ⟨record, rfl, -⟩ := Save.eq_run_of_waiting? hwait
      obtain rfl : record.id = id := hid
      exact Save.engaged_hear_run s record outcome
    | _ => exact hid.elim
  | _ => exact hid

/-- Otherwise a save leaves the disk alone, or it makes the save directory. -/
theorem Errand.Step.quiet {s : Save} {phase : Save.Phase}
    (h : Errand.Step R e store d e' store' d') (htask : e.task = .save s phase)
    (hnone : phase.operatesOn? = none) : phase = .makeDir ∨ d' = d := by
  have hbusy : ∀ source, e.task.waiting? ≠ some source := by
    intro source hwait
    rw [htask] at hwait
    obtain ⟨id, hid⟩ := Save.operatesOn?_of_waiting? hwait
    rw [hnone] at hid
    cases hid
  cases h with
  | advance _ _ _ _ _ endings now =>
    by_cases hdir : phase = .makeDir
    · exact .inl hdir
    · cases htask
      exact .inr (s.step_quiet hnone hdir store d now)
  | begin => exact .inr rfl
  | act _ _ _ _ _ source _ hwait => exact absurd hwait (hbusy source)
  | finish => exact .inr rfl

end Step

/-! ## The mirror -/

/-- The pending ids are those that are marked. -/
structure World.Mirrored (w : World) : Prop where
  numbered : w.Numbered
  backed : w.Backed
  pending : ∀ (i : Nat) (e : Errand) (id : DiagramId) (store : Store), w.errands[i]? = some e →
    w.stores[e.store]? = some store → e.task.marked? = some id → store.isPending id = true

section Mirrored

variable {R : Rules} {stores : List Store} {d d' : Disk} {errands : List Errand}

theorem World.Mirrored.start (h : ∀ store ∈ stores, store.pending = []) (d : Disk) :
    World.Mirrored ⟨stores, d, []⟩ where
  numbered := .start stores d
  backed := .start h d
  pending _ _ _ _ he := by simp at he

theorem World.Mirrored.accept (h : World.Mirrored ⟨stores, d, errands⟩) {task : Task}
    {number : Nat} (hfresh : task.Fresh)
    (hbacked : World.Backed ⟨stores, d, errands ++ [⟨task, number, .idle⟩]⟩) :
    World.Mirrored ⟨stores, d, errands ++ [⟨task, number, .idle⟩]⟩ := by
  refine ⟨h.numbered.accept hfresh number, hbacked, fun i e id store he hs hid => ?_⟩
  rcases getElem?_concat_some he with he | ⟨-, rfl⟩
  · exact h.pending i e id store he hs hid
  · have hdrawn := Task.drawn?_of_marked? hid
    rw [hfresh.drawn?] at hdrawn
    cases hdrawn

theorem World.Mirrored.move (h : World.Mirrored ⟨stores, d, errands⟩) {i : Nat} {e e' : Errand}
    {store store' : Store} (he : errands[i]? = some e) (hs : stores[e.store]? = some store)
    (hstep : Errand.Step R e store d e' store' d')
    (hroom : e.task.drawn? = none → e'.task.drawn? ≠ none → store.ids.last.toInt ≠ 2 ^ 63 - 1) :
    World.Mirrored ⟨stores.set e.store store', d', errands.set i e'⟩ := by
  have hlt := (List.getElem?_eq_some_iff.mp hs).1
  have hself : (stores.set e.store store')[e.store]? = some store' := List.getElem?_set_self hlt
  refine ⟨h.numbered.move he hs hstep hroom, h.backed.move he hs hstep,
    fun j f id st hf hst hid => ?_⟩
  rcases getElem?_set_some hf with ⟨-, rfl⟩ | ⟨hji, hfj⟩
  · rw [hstep.store_eq.1, hself] at hst
    cases hst
    rcases hstep.marks with ⟨hsame, hmarked⟩ | ⟨id', -, hsome, rfl⟩ | ⟨id', -, hnone, rfl⟩
    · have hold := h.pending i e id store he hs (hmarked ▸ hid)
      rwa [Store.isPending, hsame]
    · rw [hsome] at hid
      exact Store.isPending_mark_iff.mpr (.inl (Option.some.inj hid).symm)
    · rw [hnone] at hid
      cases hid
  · rcases getElem?_set_some hst with ⟨hstore, rfl⟩ | ⟨-, hst⟩
    · have hold := h.pending j f id store hfj (hstore ▸ hs) hid
      rcases hstep.marks with ⟨hsame, -⟩ | ⟨id', -, -, rfl⟩ | ⟨id', hsome, -, rfl⟩
      · rwa [Store.isPending, hsame]
      · exact Store.isPending_mark_iff.mpr (.inr hold)
      · -- the id that is unmarked belongs to the request that moves, and to no other one
        refine Store.isPending_unmark_iff.mpr ⟨?_, hold⟩
        rintro rfl
        exact hji (h.numbered.apart j i f e id hfj he hstore (Task.drawn?_of_marked? hid)
          (Task.drawn?_of_marked? hsome))
    · exact h.pending j f id st hfj hst hid

theorem World.Mirrored.reopen (h : World.Mirrored ⟨stores, d, errands⟩) {store : Store}
    (hbacked : World.Backed ⟨stores ++ [store], d', errands⟩) :
    World.Mirrored ⟨stores ++ [store], d', errands⟩ := by
  refine ⟨h.numbered.reopen store d', hbacked, fun i e id st he hst hid => ?_⟩
  -- nobody has drawn an id of the new store
  obtain ⟨old, hold, -⟩ := h.numbered.drawn i e id he (Task.drawn?_of_marked? hid)
  have hlt := (List.getElem?_eq_some_iff.mp hold).1
  exact h.pending i e id st he ((List.getElem?_append_left hlt).symm.trans hst) hid

/-- A step without an overflow keeps the mirror. -/
theorem World.Mirrored.step {w w' : World} (h : w.Mirrored) (hstep : World.Step .unruly w w')
    (hroom : ¬ w.Overflows w') : w'.Mirrored := by
  have hbacked := h.backed.step hstep
  cases hstep with
  | accept stores d errands task number hfresh => exact h.accept hfresh hbacked
  | move stores d errands i e store e' store' d' he hs hmove =>
    have hlt := (List.getElem?_eq_some_iff.mp he).1
    refine h.move he hs hmove fun hnone hsome hgreatest => hroom ?_
    exact ⟨i, e, e', store, he, List.getElem?_set_self hlt, hs, hnone, hsome, hgreatest⟩
  | reopen stores d errands config s d' => exact h.reopen hbacked

theorem World.Reaches.mirrored {w w' : World} (h : World.Reaches w w') (hw : w.Mirrored) :
    w'.Mirrored := by
  induction h with
  | refl => exact hw
  | tail _ hstep ih => exact ih.step hstep.1 hstep.2

/-- While a save has an id marked, this is pending; and it has it marked from before it makes the
source until after its last operation on files. -/
structure Errand.Covered (e : Errand) (store : Store) (d : Disk) : Prop where
  /-- A save that makes a source has claimed the id of it. -/
  created : ∀ {R : Rules} {e' : Errand} {store' : Store} {d' : Disk} {s : Save} {tries : Nat}
    {record : SavedDiagram}, Errand.Step R e store d e' store' d' →
    e.task = .save s (.claim tries record) → d' = d ∨ e'.task.Engaged record.id
  /-- The id that a save in progress has claimed is pending. -/
  claimed : ∀ id, e.task.Engaged id → e.task.Saving → store.isPending id = true
  /-- It stays so with each step after which the save is still in progress. -/
  lasting : ∀ {R : Rules} {e' : Errand} {store' : Store} {d' : Disk} {id : DiagramId},
    Errand.Step R e store d e' store' d' → e.task.Engaged id → e'.task.Saving →
    e'.task.Engaged id ∧ store'.isPending id = true
  /-- The id is pending before and after each operation on the files of its record. -/
  operation : ∀ {R : Rules} {e' : Errand} {store' : Store} {d' : Disk} {id : DiagramId},
    Errand.Step R e store d e' store' d' → e.task.operatesOn? = some id →
    store.isPending id = true ∧ store'.isPending id = true
  /-- A save has no other operations, but for making the save directory. -/
  quiet : ∀ {R : Rules} {e' : Errand} {store' : Store} {d' : Disk} {s : Save}
    {phase : Save.Phase}, Errand.Step R e store d e' store' d' → e.task = .save s phase →
    phase.operatesOn? = none → phase = .makeDir ∨ d' = d

theorem World.Mirrored.covered {w : World} (h : w.Mirrored) {i : Nat} {e : Errand} {store : Store}
    (he : w.errands[i]? = some e) (hs : w.stores[e.store]? = some store) :
    e.Covered store w.disk where
  created hstep htask := hstep.created htask
  claimed id hid hsaving := h.pending i e id store he hs (hid.marked? hsaving)
  lasting := by
    intro R e' store' d' id hstep hid hsaving
    have hid' := hstep.stays_engaged hid hsaving
    refine ⟨hid', ?_⟩
    have hmarked := hid'.marked? hsaving
    rcases hstep.marks with ⟨hsame, heq⟩ | ⟨id', -, hsome, rfl⟩ | ⟨id', -, hnone, -⟩
    · have hold := h.pending i e id store he hs (heq ▸ hmarked)
      rwa [Store.isPending, hsame]
    · rw [hsome] at hmarked
      exact Store.isPending_mark_iff.mpr (.inl (Option.some.inj hmarked).symm)
    · rw [hnone] at hmarked
      cases hmarked
  operation := by
    intro R e' store' d' id hstep hid
    have hold := h.pending i e id store he hs (Task.marked?_of_operatesOn? hid)
    refine ⟨hold, ?_⟩
    rwa [Store.isPending, (hstep.operation hid).2]
  quiet hstep htask hnone := hstep.quiet htask hnone

end Mirrored

/-- The pending ids of a store are those that its saves have marked, each by one save only. The id
of a save is pending from before the save makes the source until after its last operation on files.
Nothing is pending while no save is in progress. -/
theorem pending_ids_mirror_live_claims {stores : List Store} {d : Disk} {w : World}
    (hnew : ∀ store ∈ stores, store.pending = []) (hreach : World.Reaches ⟨stores, d, []⟩ w)
    {k : Nat} {store : Store} (hs : w.stores[k]? = some store) :
    (∀ id, store.isPending id = true ↔ ∃ (i : Nat) (e : Errand),
      w.errands[i]? = some e ∧ e.store = k ∧ e.task.marked? = some id) ∧
    (∀ (i j : Nat) (e f : Errand) (id : DiagramId), w.errands[i]? = some e →
      w.errands[j]? = some f → e.store = k → f.store = k → e.task.marked? = some id →
      f.task.marked? = some id → i = j) ∧
    (∀ (i : Nat) (e : Errand), w.errands[i]? = some e → e.store = k → e.Covered store w.disk) ∧
    ((∀ (i : Nat) (e : Errand), w.errands[i]? = some e → e.store = k → ¬ e.task.Saving) →
      store.pending = []) := by
  have hmirror := hreach.mirrored (.start hnew d)
  refine ⟨fun id => ⟨hmirror.backed k store id hs, ?_⟩, fun i j e f id he hf hk hk' hid hid' => ?_,
    fun i e he hk => ?_, fun hidle => ?_⟩
  · rintro ⟨i, e, he, rfl, hid⟩
    exact hmirror.pending i e id store he hs hid
  · exact hmirror.numbered.apart i j e f id he hf (hk.trans hk'.symm) (Task.drawn?_of_marked? hid)
      (Task.drawn?_of_marked? hid')
  · subst hk
    exact hmirror.covered he hs
  · refine List.eq_nil_iff_forall_not_mem.mpr fun id hid => ?_
    obtain ⟨i, e, he, hk, hmarked⟩ := hmirror.backed k store id hs (decide_eq_true hid)
    exact hidle i e he hk (Task.saving_of_drawn? (Task.drawn?_of_marked? hmarked))

/-! ## A run with two saves -/

/-- A save is taken up, or a request goes on, and no store has issued a great number. -/
def World.unhurried (w : World) (turn : Turn) : Bool :=
  w.stores.all (fun store => store.ids.last.toInt < 2 ^ 62) &&
    match turn with
    | .accept (.save _ .makeDir) _ => true
    | .accept _ _ => false
    | .go _ _ => true

theorem World.reaches_of_turn {w w' : World} {turn : Turn} (h : w.turn? turn = some w')
    (hallows : w.unhurried turn = true) :
    World.Step .unruly w w' ∧ ¬ w.Overflows w' := by
  obtain ⟨hroom, hturn⟩ := Bool.and_eq_true_iff.mp hallows
  constructor
  · refine .of_turn h ?_
    cases turn with
    | accept task number =>
      cases task with
      | save s phase =>
        cases phase with
        | makeDir => exact trivial
        | _ => cases hturn
      | _ => cases hturn
    | go i move =>
      cases move with
      | advance endings now => exact ⟨trivial, fun _ _ => trivial⟩
      | begin => exact trivial
      | leave x => exact fun _ _ _ _ => trivial
      | finish outcome => exact fun _ _ _ _ => trivial
  · rintro ⟨i, e, e', store, -, -, hs, -, -, hgreatest⟩
    have hlast := List.all_eq_true.mp hroom store (List.mem_of_getElem? hs)
    rw [decide_eq_true_eq, hgreatest] at hlast
    exact absurd hlast (by decide)

theorem World.Reaches.of_play {turns : List Turn} {w w' : World}
    (h : w.play? World.unhurried turns = some w') : World.Reaches w w' := by
  induction turns generalizing w with
  | nil =>
    cases h
    exact .refl
  | cons turn turns ih =>
    rw [World.play?] at h
    split at h
    · next hallows =>
      obtain ⟨v, hturn, hplay⟩ := Option.bind_eq_some_iff.mp h
      exact .head (World.reaches_of_turn hturn hallows) (ih hplay)
    · cases h

/-- Two saves claim an id each. The renderer of the first fails, and its source is removed. -/
def twoClaims : List Turn :=
  [.accept (.save ⟨.standard, "a"⟩ .makeDir) 0, .accept (.save ⟨.standard, "b"⟩ .makeDir) 0] ++
    Turn.steps 0 4 5 ++ Turn.steps 1 4 5 ++ Turn.steps 0 2 5 ++
    Turn.renderer 0 (.file [1] 5) 1 ++ Turn.steps 0 1 5

/-- Both come to their ends. -/
def twoEnds : List Turn :=
  Turn.steps 0 4 5 ++ Turn.steps 1 2 5 ++ Turn.renderer 1 (.file [2] 5) 0 ++ Turn.steps 1 3 5

/-- The first of two saves removes its files while the second has claimed another id. -/
def removing (w : World) : Bool :=
  match w.errands with
  | [Errand.mk (.save _ (.discard _ [_, _] _)) 0 _, Errand.mk (.save _ (.invoke _ .write)) 0 _] =>
    (w.stores[0]?.map Store.pending) == some [⟨6⟩, ⟨5⟩]
  | _ => false

theorem removing_sound {w : World} (h : removing w) :
    ∃ (e : Errand) (id : DiagramId) (store : Store), w.errands[0]? = some e ∧ e.store = 0 ∧
      e.task.operatesOn? = some id ∧ w.stores[0]? = some store ∧ store.pending = [⟨6⟩, ⟨5⟩] := by
  unfold removing at h
  split at h
  · next s record path path' error work s' record' work' herrands =>
    obtain ⟨store, hs, hpending⟩ := Option.map_eq_some_iff.mp (eq_of_beq h)
    exact ⟨_, record.id, store, by rw [herrands]; rfl, rfl, rfl, hs, hpending⟩
  · cases h

/-- Both saves are over. -/
def bothOver (w : World) : Bool :=
  match w.errands with
  | [Errand.mk (.save _ (.done (.error _))) 0 _, Errand.mk (.save _ (.done (.ok _))) 0 _] =>
    w.stores[0]?.isSome
  | _ => false

theorem bothOver_sound {w : World} (h : bothOver w) : (∃ store, w.stores[0]? = some store) ∧
    ∀ (i : Nat) (e : Errand), w.errands[i]? = some e → ¬ e.task.Saving := by
  unfold bothOver at h
  split at h
  · next s error work s' record work' herrands =>
    refine ⟨Option.isSome_iff_exists.mp h, fun i e he hsaving => ?_⟩
    rw [herrands] at he
    rcases i with _ | _ | i
    · cases he
      exact hsaving trivial
    · cases he
      exact hsaving trivial
    · simp at he
  · cases h

/-- Two ids are pending while each is marked by a save, and one of these removes its files; none is
when both saves are over. -/
theorem two_claims_are_mirrored : ∃ (w w' : World) (store store' : Store),
    World.Reaches ⟨[.open_ ⟨"saved".toList⟩], emptyShelf, []⟩ w ∧ World.Reaches w w' ∧
    w.stores[0]? = some store ∧ w'.stores[0]? = some store' ∧
    (∃ (i : Nat) (e : Errand), w.errands[i]? = some e ∧ e.store = 0 ∧
      e.task.marked? = some ⟨5⟩) ∧
    (∃ (i : Nat) (e : Errand), w.errands[i]? = some e ∧ e.store = 0 ∧
      e.task.marked? = some ⟨6⟩) ∧
    (∃ e id, w.errands[0]? = some e ∧ e.task.operatesOn? = some id ∧ e.Covered store w.disk) ∧
    store'.pending = [] := by
  have h : ((World.play? World.unhurried ⟨[.open_ ⟨"saved".toList⟩], emptyShelf, []⟩
      twoClaims).any fun w => removing w && (w.play? World.unhurried twoEnds).any bothOver) = true := by
    cbv
  simp only [Option.any_eq_true, Bool.and_eq_true] at h
  obtain ⟨w, hw, hremoving, w', hw', hover⟩ := h
  have hreach := World.Reaches.of_play hw
  have hreach' := World.Reaches.of_play hw'
  obtain ⟨e, id, store, he, hnumber, hid, hs, hpending⟩ := removing_sound hremoving
  obtain ⟨⟨store', hs'⟩, hover⟩ := bothOver_sound hover
  have hnew : ∀ store ∈ [Store.open_ ⟨"saved".toList⟩], store.pending = [] := by
    intro store hmem
    rw [List.mem_singleton.mp hmem]
    rfl
  obtain ⟨hmarked, -, hcovered, -⟩ := pending_ids_mirror_live_claims hnew hreach hs
  obtain ⟨-, -, -, hempty⟩ := pending_ids_mirror_live_claims hnew (hreach.trans hreach') hs'
  refine ⟨w, w', store, store', hreach, hreach', hs, hs', (hmarked _).mp ?_, (hmarked _).mp ?_,
    ⟨e, id, he, hid, hcovered 0 e he hnumber⟩, hempty fun i f hf _ => hover i f hf⟩
  · simp [Store.isPending, hpending]
  · simp [Store.isPending, hpending]

end DiagramService
