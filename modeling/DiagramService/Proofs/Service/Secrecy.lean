import DiagramService.Proofs.Render.Printing
import DiagramService.Proofs.Service.SaveAnswer

/-! What a renderer prints is not told to clients. Two renderers that differ in nothing else lead to
the same answers and to the same disk, whether requests come one after another or at the same time,
and so do two errors that differ in what was printed. -/

namespace DiagramService

/-! ## Responses -/

namespace Http.Response

/-- A response shows neither what was printed nor the path of the missing image. -/
theorem ofError_alike {error error' : RenderError} (h : error.Alike error') :
    ofError (.render error) = ofError (.render error') := by
  cases h <;> rfl

theorem ofRender_alike {result result' : Except RenderError Bytes}
    (h : ResultAlike result result') : ofRender result = ofRender result' := by
  cases h with
  | ok image => rfl
  | error h => exact ofError_alike h

theorem ofSave_alike {result result' : Except RenderError SavedDiagram}
    (h : ResultAlike result result') : ofSave result = ofSave result' := by
  cases h with
  | ok record => rfl
  | error h => exact ofError_alike h

end Http.Response

/-! ## One request after another -/

/-- The answer to a request and what it leaves do not depend on what the renderer prints. -/
theorem Service.handle_alike (s : Service) {renderer renderer' : Renderer}
    (h : renderer.Alike renderer') (endings : List (List Char)) (clock : Nat → Int)
    (request : Http.Request) :
    s.handle ⟨renderer, endings, clock⟩ request = s.handle ⟨renderer', endings, clock⟩ request := by
  unfold handle
  cases Http.Action.ofRequest request with
  | render text =>
    obtain ⟨hresult, hdisk⟩ :=
      Rendering.perform_alike ⟨s.config.renderer, s.config.workDir, text⟩ h endings s.disk (clock 0)
    simp only [act, Service.render, Http.Response.ofRender_alike hresult, hdisk]
  | save text =>
    obtain ⟨hresult, hdisk⟩ :=
      Save.perform_alike ⟨s.config.renderer, text⟩ h s.store s.disk clock
    simp only [act, Service.save, Http.Response.ofSave_alike hresult, hdisk]
  | _ => rfl

/-! ## Requests at the same time -/

inductive Task.Alike : Task → Task → Prop
  | same (task) : Alike task task
  | render (r) {phase phase'} (h : Rendering.Phase.Alike phase phase') :
    Alike (.render r phase) (.render r phase')
  | save (s) {phase phase'} (h : Save.Phase.Alike phase phase') :
    Alike (.save s phase) (.save s phase')

namespace Task.Alike

variable {task task' : Task}

theorem waiting? (h : task.Alike task') : task.waiting? = task'.waiting? := by
  cases h with
  | same => rfl
  | render r h => exact Rendering.waiting?_alike h
  | save s h => exact Save.waiting?_alike h

theorem step (h : task.Alike task') (endings : List (List Char)) (store : Store) (d : Disk)
    (now : Int) : (task.step endings store d now).1.Alike (task'.step endings store d now).1 ∧
      (task.step endings store d now).2 = (task'.step endings store d now).2 := by
  cases h with
  | same => exact ⟨.same _, rfl⟩
  | render r h =>
    obtain ⟨hphase, hdisk⟩ := r.step_alike h endings d now
    exact ⟨.render r hphase, congrArg (store, ·) hdisk⟩
  | save s h =>
    obtain ⟨hphase, hrest⟩ := s.step_alike h store d now
    exact ⟨.save s hphase, hrest⟩

theorem hear (h : task.Alike task') {outcome outcome' : RunOutcome}
    (houtcome : outcome.quiet = outcome'.quiet) :
    (task.hear outcome).Alike (task'.hear outcome') := by
  cases h with
  | same =>
    cases task with
    | render r phase => exact .render r (r.hear_alike (.same phase) houtcome)
    | save s phase => exact .save s (s.hear_alike (.same phase) houtcome)
    | _ => exact .same _
  | render r h => exact .render r (r.hear_alike h houtcome)
  | save s h => exact .save s (s.hear_alike h houtcome)

/-- Requests that differ in what was printed get the same answer. -/
theorem response? (h : task.Alike task') : task.response? = task'.response? := by
  cases h with
  | same => rfl
  | render r h =>
    cases h with
    | done h => exact congrArg some (Http.Response.ofRender_alike h)
    | _ => rfl
  | save s h =>
    cases h with
    | done h => exact congrArg some (Http.Response.ofSave_alike h)
    | _ => rfl

end Task.Alike

/-- Requests that are equally far and differ in what was printed. -/
structure Errand.Alike (e f : Errand) : Prop where
  task : e.task.Alike f.task
  store : f.store = e.store
  work : f.work = e.work

theorem Errand.Alike.refl (e : Errand) : e.Alike e := ⟨.same _, rfl, rfl⟩

/-- Worlds that differ in what was printed. -/
structure World.Alike (w v : World) : Prop where
  stores : v.stores = w.stores
  disk : v.disk = w.disk
  errands : List.Forall₂ Errand.Alike w.errands v.errands

theorem World.Alike.refl (w : World) : w.Alike w :=
  ⟨rfl, rfl, List.forall₂_same.mpr fun e _ => .refl e⟩

theorem World.Alike.errand {w v : World} (h : w.Alike v) {i : Nat} {e : Errand}
    (he : w.errands[i]? = some e) : ∃ f, v.errands[i]? = some f ∧ e.Alike f := by
  obtain ⟨hi, rfl⟩ := List.getElem?_eq_some_iff.mp he
  have hj : i < v.errands.length := h.errands.length_eq ▸ hi
  exact ⟨v.errands[i], List.getElem?_eq_getElem hj, h.errands.get hi hj⟩

/-- Requests stay alike where one of each is replaced. -/
theorem Errand.alike_set {es fs : List Errand} (h : List.Forall₂ Errand.Alike es fs) {e f : Errand}
    (hef : e.Alike f) (i : Nat) : List.Forall₂ Errand.Alike (es.set i e) (fs.set i f) := by
  induction h generalizing i with
  | nil => exact .nil
  | cons hhead htail ih =>
    cases i with
    | zero => exact .cons hef htail
    | succ i => exact .cons hhead (ih i)

/-- The answer to a request that has been taken up, if there is one yet. -/
def World.response? (w : World) (i : Nat) : Option Http.Response :=
  w.errands[i]?.bind fun e => e.task.response?

theorem World.Alike.response? {w v : World} (h : w.Alike v) (i : Nat) :
    v.response? i = w.response? i := by
  cases he : w.errands[i]? with
  | none =>
    have hnone : v.errands[i]? = none := by
      rw [List.getElem?_eq_none_iff] at he ⊢
      exact h.errands.length_eq ▸ he
    simp [World.response?, he, hnone]
  | some e =>
    obtain ⟨f, hf, halike⟩ := h.errand he
    simp [World.response?, he, hf, halike.task.response?]

/-- What rules allow, other rules allow too, up to what is printed. -/
structure Rules.Alike (R R' : Rules) : Prop where
  admits : ∀ {w v task number}, w.Alike v → R.admits w task number → R'.admits v task number
  reopens : ∀ {w v config}, w.Alike v → R.reopens w config → R'.reopens v config
  clock : ∀ {now}, R.clock now → R'.clock now
  draws : ∀ {task task' endings d}, task.Alike task' → R.draws task endings d →
    R'.draws task' endings d
  acts : ∀ {task task' d d'}, task.Alike task' → R.acts task d d' → R'.acts task' d d'
  ends : ∀ {task task' given d outcome}, task.Alike task' → R.ends task given d outcome →
    ∃ outcome', outcome.quiet = outcome'.quiet ∧ R'.ends task' given d outcome'

section Simulation

variable {R R' : Rules}

theorem Errand.Alike.step (hR : R.Alike R') {e f e' : Errand} {store store' : Store} {d d' : Disk}
    (h : e.Alike f) (hstep : Errand.Step R e store d e' store' d') :
    ∃ f', Errand.Step R' f store d f' store' d' ∧ e'.Alike f' := by
  obtain ⟨task', number', work'⟩ := f
  obtain ⟨htask, hnumber, hwork⟩ := h
  simp only at htask hnumber hwork
  cases hstep with
  | advance task number work _ _ endings now hwait hclock hdraw =>
    subst hnumber hwork
    obtain ⟨hnext, hrest⟩ := htask.step endings store d now
    refine ⟨⟨(task'.step endings store d now).1, number', work'⟩, ?_, hnext, rfl, rfl⟩
    rw [hrest]
    exact .advance task' number' work' store d endings now (htask.waiting? ▸ hwait)
      (hR.clock hclock) (hR.draws htask hdraw)
  | begin task number _ _ source hwait =>
    subst hnumber hwork
    exact ⟨_, .begin task' number' store d source (htask.waiting? ▸ hwait), htask, rfl, rfl⟩
  | act task number given _ _ source _ hwait hact =>
    subst hnumber hwork
    exact ⟨_, .act task' number' given store d source d' (htask.waiting? ▸ hwait)
      (hR.acts htask hact), htask, rfl, rfl⟩
  | finish task number given _ _ source outcome hwait hend =>
    subst hnumber hwork
    obtain ⟨outcome', hquiet, hend'⟩ := hR.ends htask hend
    exact ⟨_, .finish task' number' given store d source outcome' (htask.waiting? ▸ hwait) hend',
      htask.hear hquiet, rfl, rfl⟩

theorem World.Alike.step (hR : R.Alike R') {w v w' : World} (h : w.Alike v)
    (hstep : World.Step R w w') : ∃ v', World.Step R' v v' ∧ w'.Alike v' := by
  obtain ⟨stores, d, errands⟩ := v
  obtain ⟨hstores, hdisk, herrands⟩ := id h
  simp only at hstores hdisk herrands
  cases hstep with
  | accept _ _ errands' task number hadmits =>
    subst hstores hdisk
    exact ⟨_, .accept stores d errands task number (hR.admits h hadmits), rfl, rfl,
      List.rel_append herrands (.cons (.refl _) .nil)⟩
  | move _ _ errands' i e store e' store' d' he hs hstep =>
    subst hstores hdisk
    obtain ⟨f, hf, halike⟩ := h.errand he
    obtain ⟨f', hstep', halike'⟩ := halike.step hR hstep
    refine ⟨_, .move stores d errands i f store f' store' d' hf ?_ hstep', ?_, rfl, ?_⟩
    · rw [halike.store]
      exact hs
    · rw [halike.store]
    · exact Errand.alike_set herrands halike' i
  | reopen _ _ errands' config s d' hopen hstart =>
    subst hstores hdisk
    exact ⟨_, .reopen stores d errands config s d' (hR.reopens h hopen) hstart, rfl, rfl, herrands⟩

/-- For every run there is one with the other renderers that leads to the same disk and answers. -/
theorem World.Alike.run (hR : R.Alike R') {n : Nat} {w v w' : World} (h : w.Alike v)
    (hrun : World.Run R n w w') : ∃ v', World.Run R' n v v' ∧ w'.Alike v' := by
  induction hrun with
  | refl w => exact ⟨v, .refl v, h⟩
  | tail _ hstep ih =>
    obtain ⟨u, hrun', halike⟩ := ih h
    obtain ⟨v', hstep', halike'⟩ := halike.step hR hstep
    exact ⟨v', .tail hrun' hstep', halike'⟩

end Simulation

/-- What a renderer prints never reaches a client. Two renderers that end in the same way at the
same time and leave the same disk, but print different things, lead to the same answer to a request
and to the same service after it. Errors that differ only in what was printed, or in the path of the
missing image, have the same response. And when requests are mixed, for every run with one of the
renderers there is one with the other that leads to the same stores, disk and answers. -/
theorem prints_never_reach_clients :
    (∀ t t' : Talker, t.Alike t' →
      ∀ (s : Service) (endings : List (List Char)) (clock : Nat → Int) (request : Http.Request),
        s.handle ⟨t.renderer, endings, clock⟩ request =
          s.handle ⟨t'.renderer, endings, clock⟩ request) ∧
    (∀ error error' : RenderError, error.Alike error' →
      Http.Response.ofError (.render error) = .ofError (.render error') ∧
      Http.Response.ofRender (.error error) = .ofRender (.error error') ∧
      Http.Response.ofSave (.error error) = .ofSave (.error error')) ∧
    ∀ R R' : Rules, R.Alike R' → ∀ (n : Nat) (w w' : World), World.Run R n w w' →
      ∃ v', World.Run R' n w v' ∧ v'.stores = w'.stores ∧ v'.disk = w'.disk ∧
        ∀ i, v'.response? i = w'.response? i := by
  refine ⟨fun t t' h s endings clock request => s.handle_alike h.renderer endings clock request,
    fun error error' h => ?_, fun R R' hR n w w' hrun => ?_⟩
  · have hresponse := Http.Response.ofError_alike h
    exact ⟨hresponse, hresponse, hresponse⟩
  · obtain ⟨v', hrun', halike⟩ := (World.Alike.refl w).run hR hrun
    exact ⟨v', hrun', halike.stores, halike.disk, halike.response?⟩

/-- A renderer that complains and fails. -/
def moaning (errors : Bytes) : Talker := fun _ d => ⟨.ok (.exited (some 1)), ⟨[1], errors⟩, d⟩

theorem moaning_alike (errors errors' : Bytes) : (moaning errors).Alike (moaning errors') :=
  fun _ _ => ⟨rfl, rfl⟩

/-- The renderer does nothing and fails with a complaint. -/
def oneMoan (errors : Bytes) : Rules where
  admits := fun _ _ _ => False
  reopens := fun _ _ => False
  clock := fun _ => True
  draws := fun _ _ _ => True
  acts := fun _ d d' => d' = d
  ends := fun _ _ _ outcome => outcome = .ended (some 1) errors

theorem oneMoan_alike (errors errors' : Bytes) : (oneMoan errors).Alike (oneMoan errors') :=
  ⟨fun _ h => h, fun _ h => h, fun h => h, fun _ h => h, fun _ h => h,
    fun _ h => ⟨.ended (some 1) errors', by rw [h]; rfl, rfl⟩⟩

/-- A save whose renderer is at work. -/
def savingTask : Task :=
  .save ⟨.standard, "a"⟩ (.invoke (.inDirectory ⟨"saved".toList⟩ ⟨5⟩) .run)

/-- A world with this save alone. -/
def savingWorld : World :=
  ⟨[.open_ ⟨"saved".toList⟩], emptyShelf, [⟨savingTask, 0, .running none⟩]⟩

/-- The end of the renderer is heard of. -/
theorem savingWorld_hears (errors : Bytes) : World.Run (oneMoan errors) 1 savingWorld
    ⟨[.open_ ⟨"saved".toList⟩], emptyShelf,
      [⟨savingTask.hear (.ended (some 1) errors), 0,
        .over (emptyShelf.contentAt (renderedImagePath
          (SavedDiagram.inDirectory ⟨"saved".toList⟩ ⟨5⟩).source)).toOption⟩]⟩ :=
  .tail (.refl _) (.move [.open_ ⟨"saved".toList⟩] emptyShelf _ 0 ⟨savingTask, 0, .running none⟩ _ _
    _ _ rfl rfl (.finish savingTask 0 none _ _ _ _ rfl rfl))

/-- A complaint is answered like silence. -/
theorem moaning_is_not_heard :
    onShelf.handle ⟨(moaning [65]).renderer, [], fun _ => 5⟩ saveRequest =
      onShelf.handle ⟨(moaning []).renderer, [], fun _ => 5⟩ saveRequest ∧
    Http.Response.ofError (.render (.toolFailure (some 1) "secret")) =
      .ofError (.render (.toolFailure (some 1) "")) ∧
    ∃ v', World.Run (oneMoan []) 1 savingWorld v' ∧ v'.disk = emptyShelf := by
  obtain ⟨hhandle, herror, hrun⟩ := prints_never_reach_clients
  refine ⟨hhandle (moaning [65]) (moaning []) (moaning_alike _ _) onShelf [] (fun _ => 5)
    saveRequest, (herror _ _ (.toolFailure _ _ _)).1, ?_⟩
  obtain ⟨v', hrun', -, hdisk, -⟩ :=
    hrun (oneMoan [65]) (oneMoan []) (oneMoan_alike _ _) 1 _ _ (savingWorld_hears [65])
  exact ⟨v', hrun', hdisk⟩

end DiagramService
