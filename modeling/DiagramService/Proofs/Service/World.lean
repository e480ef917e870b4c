import DiagramService.Proofs.Store.Save
import DiagramService.Service.Running

/-! Requests in any order. A world holds the stores, the disk and the requests that have been taken
up; each of these takes one step at a time, and any of them may be next. What comes from outside is
left to rules: which requests come, what the clock shows, what a renderer does to the disk while it
runs and how it ends. -/

namespace DiagramService

/-! ## Steps -/

/-- How far the renderer of a request is. -/
inductive Work where
  | idle
  /-- It was started on a source with this content. -/
  | running (given : Option Bytes)
  /-- It is over, and its image held this. -/
  | over (left : Option Bytes)
deriving DecidableEq, Repr

/-- A request that has been taken up. -/
structure Errand where
  task : Task
  /-- The number of its store. -/
  store : Nat
  work : Work

structure World where
  stores : List Store
  disk : Disk
  errands : List Errand

/-- What may come from outside. -/
structure Rules where
  /-- A request may be taken up with a store. -/
  admits : World → Task → Nat → Prop
  /-- The service may be started again. -/
  reopens : World → Config → Prop
  /-- What the clock may show. -/
  clock : Int → Prop
  /-- The endings that may be drawn for the names of scratch directories. -/
  draws : Task → List (List Char) → Disk → Prop
  /-- What the renderer of a request may do at one moment of its run. -/
  acts : Task → Disk → Disk → Prop
  /-- How a renderer that was given a source may end. -/
  ends : Task → Option Bytes → Disk → RunOutcome → Prop

/-- One step of a request. While its renderer runs the renderer acts instead. -/
inductive Errand.Step (R : Rules) : Errand → Store → Disk → Errand → Store → Disk → Prop
  | advance (task number work store d endings now) (hwait : task.waiting? = none)
      (hclock : R.clock now) (hdraw : R.draws task endings d) :
    Step R ⟨task, number, work⟩ store d
      ⟨(task.step endings store d now).1, number, work⟩
      (task.step endings store d now).2.1 (task.step endings store d now).2.2
  | begin (task number store d source) (hwait : task.waiting? = some source) :
    Step R ⟨task, number, .idle⟩ store d
      ⟨task, number, .running (d.contentAt source).toOption⟩ store d
  | act (task number given store d source e) (hwait : task.waiting? = some source)
      (hact : R.acts task d e) :
    Step R ⟨task, number, .running given⟩ store d ⟨task, number, .running given⟩ store e
  | finish (task number given store d source outcome) (hwait : task.waiting? = some source)
      (hend : R.ends task given d outcome) :
    Step R ⟨task, number, .running given⟩ store d
      ⟨task.hear outcome, number, .over (d.contentAt (renderedImagePath source)).toOption⟩ store d

/-- One step of the world. -/
inductive World.Step (R : Rules) : World → World → Prop
  | accept (stores d errands task number)
      (hadmits : R.admits ⟨stores, d, errands⟩ task number) :
    Step R ⟨stores, d, errands⟩ ⟨stores, d, errands ++ [⟨task, number, .idle⟩]⟩
  | move (stores d errands i e store e' store' d') (he : errands[i]? = some e)
      (hs : stores[e.store]? = some store) (hstep : Errand.Step R e store d e' store' d') :
    Step R ⟨stores, d, errands⟩ ⟨stores.set e.store store', d', errands.set i e'⟩
  | reopen (stores d errands config s d') (hopen : R.reopens ⟨stores, d, errands⟩ config)
      (hstart : Service.start config d = (.ok s, d')) :
    Step R ⟨stores, d, errands⟩ ⟨stores ++ [s.store], d', errands⟩

/-- A number of steps. -/
inductive World.Run (R : Rules) : Nat → World → World → Prop
  | refl (w) : Run R 0 w w
  | tail {n w w' w''} (hrun : Run R n w w') (hstep : World.Step R w' w'') : Run R (n + 1) w w''

theorem World.Run.append {R : Rules} {n m : Nat} {w w' w'' : World} (h : World.Run R n w w')
    (h' : World.Run R m w' w'') : World.Run R (n + m) w w'' := by
  induction h' with
  | refl w' => exact h
  | tail _ hs ih => exact .tail (ih h) hs

/-- What every step keeps, every run keeps. -/
theorem World.Run.keeps {R : Rules} {P : World → Prop}
    (hstep : ∀ w w', World.Step R w w' → P w → P w') {n : Nat} {w w' : World}
    (h : World.Run R n w w') (hw : P w) : P w' := by
  induction h with
  | refl w => exact hw
  | tail _ hs ih => exact hstep _ _ hs (ih hw)

/-- A number of steps with a property in each state. -/
inductive World.During (R : Rules) (P : World → Prop) : Nat → World → World → Prop
  | refl {w} (hw : P w) : During R P 0 w w
  | tail {n w w' w''} (hrun : During R P n w w') (hstep : World.Step R w' w'') (hw : P w'') :
    During R P (n + 1) w w''

theorem World.During.run {R : Rules} {P : World → Prop} {n : Nat} {w w' : World}
    (h : World.During R P n w w') : World.Run R n w w' := by
  induction h with
  | refl => exact .refl _
  | tail _ hstep _ ih => exact .tail ih hstep

theorem World.During.last {R : Rules} {P : World → Prop} {n : Nat} {w w' : World}
    (h : World.During R P n w w') : P w' := by
  cases h with
  | refl hw => exact hw
  | tail _ _ hw => exact hw

/-- What follows from what every step keeps holds all the time. -/
theorem World.Run.during {R : Rules} {P Q : World → Prop} {n : Nat} {w w' : World}
    (h : World.Run R n w w') (hw : Q w) (hstep : ∀ v v', World.Step R v v' → Q v → Q v')
    (hsub : ∀ v, Q v → P v) : World.During R P n w w' := by
  induction h with
  | refl w => exact .refl (hsub w hw)
  | tail hrun hs ih => exact .tail (ih hw) hs (hsub _ (hstep _ _ hs (hrun.keeps hstep hw)))

/-! ## Requests and ids -/

namespace Task

/-- The id whose source a request has made and not removed. -/
def held? : Task → Option DiagramId
  | .save _ phase => phase.held?
  | _ => none

/-- The id whose files a request may still change. -/
def worksOn? : Task → Option DiagramId
  | .save _ phase => phase.worksOn?
  | _ => none

/-- A request that has not taken a step. -/
def Fresh : Task → Prop
  | .render _ .makeRoot => True
  | .save _ .makeDir => True
  | .list .names => True
  | .answered _ => True
  | _ => False

/-- A request that never changes anything. -/
def Still : Task → Prop
  | .list _ => True
  | .answered _ => True
  | _ => False

/-- What a request relies on when it takes a step. -/
def Settled (dir : Path) (D : Place) (d : Disk) : Task → Prop
  | .save s phase => s.Settled dir D phase d
  | _ => True

/-- Every request begins fresh. -/
theorem fresh_ofAction (s : Service) (request : Http.Request) (action : Http.Action) :
    (ofAction s request action).Fresh := by
  cases action <;> exact trivial

theorem Fresh.held? {task : Task} (h : task.Fresh) : task.held? = none := by
  cases task with
  | save s phase =>
    cases phase with
    | makeDir => rfl
    | _ => exact h.elim
  | _ => rfl

theorem Fresh.worksOn? {task : Task} (h : task.Fresh) : task.worksOn? = none := by
  cases task with
  | save s phase =>
    cases phase with
    | makeDir => rfl
    | _ => exact h.elim
  | _ => rfl

theorem Fresh.settled {task : Task} (h : task.Fresh) {dir : Path} {D : Place} {d : Disk}
    (hopens : d.Opens dir D) : task.Settled dir D d := by
  cases task with
  | save s phase =>
    cases phase with
    | makeDir => exact ⟨hopens, trivial, nofun⟩
    | _ => exact h.elim
  | _ => exact trivial

end Task

/-- The renderer of a save changes nothing but the image path that belongs to its source. -/
def Rules.Confined (R : Rules) : Prop :=
  ∀ s phase source d e, R.acts (.save s phase) d e → Save.waiting? phase = some source →
    Disk.AgreesOff (d.At (renderedImagePath source)) d e

/-- A step of a request that does no harm to the records in a directory: it only touches the source
that it holds, the image that it works on, and what was not there. -/
structure Errand.Harmless (D : Place) (e : Errand) (d : Disk) (e' : Errand) (d' : Disk) : Prop where
  number : e'.store = e.store
  source : ∀ id x, e.task.held? ≠ some id → d.get? (id.sourceName :: D) = some x →
    d'.get? (id.sourceName :: D) = some x
  image : ∀ id, e.task.worksOn? ≠ some id →
    d'.get? (id.imageName :: D) = d.get? (id.imageName :: D) ∨
      d.get? (id.imageName :: D) = none ∧ d'.get? (id.imageName :: D) = some .directory
  held : e'.task.held? = e.task.held? ∨ e'.task.held? = none ∨
    ∃ id, e'.task.held? = some id ∧ d.get? (id.sourceName :: D) = none
  worksOn : e'.task.worksOn? = e.task.worksOn? ∨ e'.task.worksOn? = none ∨
    ∃ id, e'.task.worksOn? = some id ∧ d.get? (id.sourceName :: D) = none

/-- Nothing is harmed while the disk stays as it is. -/
theorem Errand.Harmless.refl (D : Place) {e e' : Errand} (d : Disk) (hnumber : e'.store = e.store)
    (hheld : e'.task.held? = e.task.held? ∨ e'.task.held? = none)
    (hworks : e'.task.worksOn? = e.task.worksOn? ∨ e'.task.worksOn? = none) :
    e.Harmless D d e' d :=
  ⟨hnumber, fun _ _ _ h => h, fun _ _ => .inl rfl, hheld.imp_right .inl, hworks.imp_right .inl⟩

section Save

variable {R : Rules} {D : Place} {s : Save} {phase : Save.Phase} {number : Nat} {work : Work}
  {store store' : Store} {d d' : Disk} {e' : Errand}

/-- While its renderer runs, a save touches the image of its record and nothing else. -/
theorem Save.agreesOff_of_acts (hR : R.Confined) (hset : s.Settled store.dir D phase d)
    {source : Path} (hwait : Save.waiting? phase = some source)
    (hact : R.acts (.save s phase) d d') : ∃ id, phase = .invoke (.inDirectory store.dir id) .run ∧
      Disk.AgreesOff (· = id.imageName :: D) d d' := by
  obtain ⟨record, rfl, rfl⟩ := Save.eq_run_of_waiting? hwait
  have hrecord := hset.proper.1
  refine ⟨record.id, by rw [← hrecord], ?_⟩
  refine (hR s _ _ d d' hact hwait).mono fun q hq => ?_
  rw [hrecord] at hq
  exact hset.opens.at_join record.id.imageName_ordinary
    (by rw [← renderedImagePath_record]; exact hq)

theorem Errand.Step.agreesOff_save (hR : R.Confined)
    (h : Errand.Step R ⟨.save s phase, number, work⟩ store d e' store' d')
    (hset : s.Settled store.dir D phase d) : Disk.AgreesOff (phase.Reaches D d) d d' := by
  cases h with
  | advance _ _ _ _ _ endings now => exact (hset.advance now).agreesOff
  | begin => exact .refl _ d
  | act _ _ given _ _ source _ hwait hact =>
    obtain ⟨id, rfl, hoff⟩ := Save.agreesOff_of_acts hR hset hwait hact
    exact hoff.mono fun q hq => ⟨id, .inr ⟨hq, rfl⟩⟩
  | finish => exact .refl _ d

theorem Errand.Step.harmless_save (hR : R.Confined)
    (h : Errand.Step R ⟨.save s phase, number, work⟩ store d e' store' d')
    (hset : s.Settled store.dir D phase d) :
    Errand.Harmless D ⟨.save s phase, number, work⟩ d e' d' := by
  have hoff := h.agreesOff_save hR hset
  have hsource : ∀ id x, phase.held? ≠ some id → d.get? (id.sourceName :: D) = some x →
      d'.get? (id.sourceName :: D) = some x := by
    intro id x hid hget
    refine (hoff.get _ ?_).trans hget
    rintro ⟨id', ⟨heq, hid' | hnone⟩ | ⟨heq, -⟩⟩
    · rw [id.sourceName_injective (List.cons.inj heq).1] at hid
      exact hid hid'
    · rw [hget] at hnone
      cases hnone
    · exact Save.source_ne_image D id id' heq
  have himage : ∀ id, phase.worksOn? ≠ some id →
      d'.get? (id.imageName :: D) = d.get? (id.imageName :: D) := by
    intro id hid
    refine hoff.get _ ?_
    rintro ⟨id', ⟨heq, -⟩ | ⟨heq, hid'⟩⟩
    · exact Save.source_ne_image D id' id heq.symm
    · rw [DiagramId.imageName_injective (List.cons.inj heq).1] at hid
      exact hid hid'
  cases h with
  | advance _ _ _ _ _ endings now =>
    have hadv := hset.advance now
    exact ⟨rfl, hsource, fun id hid => .inl (himage id hid), hadv.held hset.proper, hadv.worksOn⟩
  | begin => exact .refl D _ rfl (.inl rfl) (.inl rfl)
  | act => exact ⟨rfl, hsource, fun id hid => .inl (himage id hid), .inl rfl, .inl rfl⟩
  | finish _ _ given _ _ source outcome hwait _ =>
    obtain ⟨record, rfl, rfl⟩ := Save.eq_run_of_waiting? hwait
    exact .refl D _ rfl (.inl (Save.held?_hear_run s record outcome))
      (.inl (Save.worksOn?_hear_run s record outcome))

theorem Errand.Step.dir_save (h : Errand.Step R ⟨.save s phase, number, work⟩ store d e' store' d')
    (hset : s.Settled store.dir D phase d) : store'.dir = store.dir := by
  cases h with
  | advance _ _ _ _ _ endings now => exact (hset.advance now).dir_eq
  | _ => rfl

theorem Errand.Step.settled_save (hR : R.Confined)
    (h : Errand.Step R ⟨.save s phase, number, work⟩ store d e' store' d')
    (hset : s.Settled store.dir D phase d) (hopens : d'.Opens store.dir D) :
    e'.task.Settled store.dir D d' := by
  cases h with
  | advance _ _ _ _ _ endings now => exact (hset.advance now).settled hset hopens
  | begin => exact hset
  | act _ _ given _ _ source _ hwait hact =>
    obtain ⟨id, rfl, hoff⟩ := Save.agreesOff_of_acts hR hset hwait hact
    refine ⟨hopens, hset.proper, fun id' hid => ?_⟩
    obtain ⟨content, time, hget, htext⟩ := hset.source id' hid
    exact ⟨content, time, (hoff.get _ (Save.source_ne_image D id' id)).trans hget, htext⟩
  | finish _ _ given _ _ source outcome hwait _ =>
    obtain ⟨record, rfl, rfl⟩ := Save.eq_run_of_waiting? hwait
    exact hset.hear outcome

end Save

/-- A save that is over takes no step that changes anything. -/
theorem Errand.Step.over {R : Rules} {e e' : Errand} {store store' : Store} {d d' : Disk}
    (h : Errand.Step R e store d e' store' d') {s : Save} {result : Except RenderError SavedDiagram}
    (htask : e.task = .save s (.done result)) : e' = e := by
  cases h with
  | advance =>
    cases htask
    rfl
  | begin _ _ _ _ _ hwait =>
    cases htask
    cases hwait
  | act => rfl
  | finish _ _ _ _ _ _ _ hwait =>
    cases htask
    cases hwait

/-- What every step of a request keeps is kept for each request in the world. -/
theorem World.Step.keeps_errand {R : Rules} {P : Errand → Prop}
    (hkeeps : ∀ {e e' : Errand} {store store' : Store} {d d' : Disk},
      Errand.Step R e store d e' store' d' → P e → P e')
    {w w' : World} (h : World.Step R w w') {i : Nat} (hi : ∃ e, w.errands[i]? = some e ∧ P e) :
    ∃ e, w'.errands[i]? = some e ∧ P e := by
  obtain ⟨e, he, hP⟩ := hi
  have hlt := (List.getElem?_eq_some_iff.mp he).1
  cases h with
  | accept => exact ⟨e, (List.getElem?_append_left hlt).trans he, hP⟩
  | move _ _ _ j f store f' store' d' hf _ hstep =>
    by_cases hij : j = i
    · subst hij
      rw [show _ = some f from hf] at he
      cases he
      exact ⟨f', List.getElem?_set_self hlt, hkeeps hstep hP⟩
    · exact ⟨e, (List.getElem?_set_ne hij).trans he, hP⟩
  | reopen => exact ⟨e, he, hP⟩

theorem World.Step.over {R : Rules} {w w' : World} (h : World.Step R w w') {i : Nat} {e : Errand}
    (he : w.errands[i]? = some e) {s : Save} {result : Except RenderError SavedDiagram}
    (htask : e.task = .save s (.done result)) : w'.errands[i]? = some e := by
  obtain ⟨f, hf, rfl⟩ := h.keeps_errand
    (fun hstep heq => (hstep.over (heq ▸ htask)).trans heq) ⟨e, he, rfl⟩
  exact hf

theorem World.Run.over {R : Rules} {n : Nat} {w w' : World} (h : World.Run R n w w') {i : Nat}
    {e : Errand} (he : w.errands[i]? = some e) {s : Save} {result : Except RenderError SavedDiagram}
    (htask : e.task = .save s (.done result)) : w'.errands[i]? = some e :=
  h.keeps (fun _ _ hs he => hs.over he htask) he

section Still

variable {R : Rules} {D : Place} {e e' : Errand} {store store' : Store} {d d' : Disk}

/-- A listing and an answer that needs nothing more leave everything as it is. -/
theorem Errand.Step.still (h : Errand.Step R e store d e' store' d') (hstill : e.task.Still) :
    d' = d ∧ store' = store ∧ e'.store = e.store ∧ e'.task.Still := by
  have hwait : ∀ source, e.task.waiting? ≠ some source := by
    intro source
    cases htask : e.task with
    | render r phase => rw [htask] at hstill; exact hstill.elim
    | save s phase => rw [htask] at hstill; exact hstill.elim
    | list phase => nofun
    | answered response => nofun
  cases h with
  | advance task _ _ _ _ endings now =>
    cases task with
    | render r phase => exact hstill.elim
    | save s phase => exact hstill.elim
    | list phase => exact ⟨rfl, rfl, rfl, trivial⟩
    | answered response => exact ⟨rfl, rfl, rfl, trivial⟩
  | begin _ _ _ _ source h => exact absurd h (hwait source)
  | act _ _ _ _ _ source _ h => exact absurd h (hwait source)
  | finish _ _ _ _ _ source _ h => exact absurd h (hwait source)

theorem Task.Still.held? {task : Task} (h : task.Still) : task.held? = none := by
  cases task with
  | save s phase => exact h.elim
  | _ => rfl

theorem Task.Still.worksOn? {task : Task} (h : task.Still) : task.worksOn? = none := by
  cases task with
  | save s phase => exact h.elim
  | _ => rfl

theorem Task.Still.settled {task : Task} (h : task.Still) (dir : Path) (D : Place) (d : Disk) :
    task.Settled dir D d := by
  cases task with
  | save s phase => exact h.elim
  | _ => exact trivial

theorem Errand.Step.harmless_still (h : Errand.Step R e store d e' store' d')
    (hstill : e.task.Still) : e.Harmless D d e' d' := by
  obtain ⟨rfl, -, hnumber, hstill'⟩ := h.still hstill
  exact .refl D _ hnumber (.inr hstill'.held?) (.inr hstill'.worksOn?)

end Still

/-- A rendering only ever becomes a later phase of itself, and its store does not matter. -/
theorem Errand.Step.render {R : Rules} {r : Rendering} {phase : Rendering.Phase} {number : Nat}
    {work : Work} {e' : Errand} {store store' : Store} {d d' : Disk}
    (h : Errand.Step R ⟨.render r phase, number, work⟩ store d e' store' d') :
    store' = store ∧ e'.store = number ∧ ∃ phase', e'.task = .render r phase' := by
  cases h <;> exact ⟨rfl, rfl, _, rfl⟩

end DiagramService
