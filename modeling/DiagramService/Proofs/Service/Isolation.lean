import Mathlib
import DiagramService.Proofs.Http.Answer
import DiagramService.Proofs.Service.Schedule
import DiagramService.Proofs.Service.WorkDir

/-! Renderings at the same time never see each other. The scratch directories in use are apart from
each other and from the records, and each step of a request stays in its own part; so the answer to
a rendering is the one that it gets alone. -/

namespace DiagramService

/-! ## What one request does to the others -/

/-- The scratch directory of a request. -/
def Task.scratch? : Task → Option Scratch
  | .render _ phase => Rendering.scratch? phase
  | _ => none

/-- A step of a request that leaves alone what others work on. -/
structure Errand.Gentle (config : Config) (root : Path) (D W : Place) (e : Errand) (d : Disk)
    (e' : Errand) (d' : Disk) : Prop where
  harmless : e.Harmless D d e' d'
  ready : Ready config root D W d → Ready config root D W d'
  get : Ready config root D W d → ∀ ending, ¬ Scratch.placeOf W ending <:+ D →
    e.task.scratch? ≠ some (.named root ending) → e'.task.scratch? ≠ some (.named root ending) →
    ∀ q, Scratch.placeOf W ending <:+ q → d'.get? q = d.get? q
  lodging : e'.task.scratch? = e.task.scratch? ∨ e'.task.scratch? = none ∨ ∃ ending,
    Scratch.Drawn ending ∧ e'.task.scratch? = some (.named root ending) ∧
    d.get? (Scratch.placeOf W ending) = none

theorem Rules.isolated_confined (config : Config) (b : Behaviour) (W : Place) :
    (Rules.isolated config b W).Confined :=
  fun s phase source _ _ hact hwait => hact.1 s phase source rfl hwait

section Step

variable {config : Config} {b : Behaviour} {root : Path} {D W : Place} {d₀ d d' : Disk}
  {number : Nat} {work : Work} {store store' : Store} {e e' : Errand}

theorem Errand.Step.gentle_still (h : Errand.Step (.isolated config b W) e store d e' store' d')
    (hstill : e.task.Still) : e.Gentle config root D W d e' d' := by
  have hharm := h.harmless_still (D := D) hstill
  obtain ⟨rfl, -, -, hstill'⟩ := h.still hstill
  have hnone : ∀ {task : Task}, task.Still → task.scratch? = none := by
    intro task hs
    cases task with
    | render r phase => exact hs.elim
    | _ => rfl
  exact ⟨hharm, fun hd => hd, fun _ _ _ _ _ _ _ => rfl, .inr (.inl (hnone hstill'))⟩

theorem Errand.Step.gentle_save {s : Save} {phase : Save.Phase}
    (h : Errand.Step (.isolated config b W) ⟨.save s phase, number, work⟩ store d e' store' d')
    (hset : s.Settled store.dir D phase d) :
    Disk.AgreesOff (fun q => ∃ id, PlaceOf D id q) d d' ∧
      Errand.Gentle config root D W ⟨.save s phase, number, work⟩ d e' d' := by
  have hR := Rules.isolated_confined config b W
  have hoff : Disk.AgreesOff (fun q => ∃ id, PlaceOf D id q) d d' :=
    (h.agreesOff_save hR hset).mono fun _ => Save.Phase.Reaches.placeOf
  refine ⟨hoff, h.harmless_save hR hset, fun hd => hd.records hoff,
    fun _ _ hD _ _ _ hq => get?_below hoff hD hq, .inl ?_⟩
  cases h <;> rfl

theorem Staged.gentle {r : Rendering} {phase : Rendering.Phase}
    (hs : Staged config b root D W r phase work d) (hu : Usable config root D W d₀)
    (hd : InUse config root D W d₀ d)
    (h : Errand.Step (.isolated config b W) ⟨.render r phase, number, work⟩ store d e' store' d') :
    ∃ phase', e'.task = .render r phase' ∧ Staged config b root D W r phase' e'.work d' ∧
      Ready config root D W d' ∧
      Errand.Gentle config root D W ⟨.render r phase, number, work⟩ d e' d' := by
  obtain ⟨-, hnumber, -⟩ := h.render
  obtain ⟨phase', htask, hstaged, heffect⟩ := hs.own hu hd h
  have hrecord : ∀ {id : DiagramId} {q : Place}, PlaceOf D id q →
      d'.get? q = d.get? q ∨ d.get? q = none ∧ d'.get? q = some .directory :=
    fun hq => heffect.get _ fun _ hD => placeOf_not_below hq hD
  refine ⟨phase', htask, hstaged, heffect.ready, ?_⟩
  refine ⟨⟨hnumber, fun id x _ hget => ?_, fun id _ => hrecord (.inr rfl), .inr (.inl ?_),
    .inr (.inl ?_)⟩, fun _ => heffect.ready, fun hready ending _ hne hne' q hq => ?_, ?_⟩
  · rcases hrecord (show PlaceOf D id _ from .inl rfl) with heq | ⟨hnone, -⟩
    · rw [heq, hget]
    · rw [hget] at hnone
      cases hnone
  · rw [htask]
    rfl
  · rw [htask]
    rfl
  · rw [htask] at hne'
    refine (heffect.own hready).get q ?_
    rintro (⟨ending', -, hphase, hq'⟩ | ⟨ending', -, hphase, hq'⟩)
    · obtain rfl := Scratch.placeOf_eq_of_suffix hq hq'
      exact hne hphase
    · obtain rfl := Scratch.placeOf_eq_of_suffix hq hq'
      exact hne' hphase
  · rw [htask]
    exact heffect.lodging

end Step

/-! ## All requests -/

/-- Every rendering is as far as its phase says, and no two have the same scratch directory. -/
structure Isolated (config : Config) (b : Behaviour) (root : Path) (D W : Place) (d₀ : Disk)
    (w : World) : Prop where
  ledger : Ledger D w
  paths : ∀ store ∈ w.stores, store.dir = config.saveDir
  disk : InUse config root D W d₀ w.disk
  staged : ∀ (i : Nat) (e : Errand) r phase, w.errands[i]? = some e → e.task = .render r phase →
    Staged config b root D W r phase e.work w.disk
  apart : ∀ (i j : Nat) (e e' : Errand) scratch, w.errands[i]? = some e →
    w.errands[j]? = some e' → e.task.scratch? = some scratch →
    e'.task.scratch? = some scratch → i = j

namespace Isolated

variable {config : Config} {b : Behaviour} {root : Path} {D W : Place} {d₀ d d' : Disk}
  {stores : List Store} {errands : List Errand} {w w' : World}

theorem start (hu : Usable config root D W d₀) {store : Store} (hdir : store.dir = config.saveDir) :
    Isolated config b root D W d₀ ⟨[store], d₀, []⟩ := by
  have hd : InUse config root D W d₀ d₀ := .inl (.refl _ d₀)
  have hpaths : ∀ st ∈ [store], st.dir = config.saveDir := by
    intro st hst
    rw [List.mem_singleton.mp hst, hdir]
  refine ⟨⟨fun st hst => ?_, fun i e he => by simp at he, fun i j e e' id he => by simp at he⟩,
    hpaths, hd, fun i e r phase he => by simp at he, fun i j e e' scratch he => by simp at he⟩
  rw [hpaths st hst]
  exact hd.opens hu

theorem accept (h : Isolated config b root D W d₀ ⟨stores, d, errands⟩) {task : Task} {number : Nat}
    (hfresh : task.Fresh) (hnumber : number < stores.length)
    (hrender : ∀ r phase, task = .render r phase →
      r.config = config.renderer ∧ r.workDir = config.workDir) :
    Isolated config b root D W d₀ ⟨stores, d, errands ++ [⟨task, number, .idle⟩]⟩ := by
  have hscratch : task.scratch? = none := by
    cases task with
    | render r phase =>
      cases phase with
      | makeRoot => rfl
      | _ => exact hfresh.elim
    | _ => rfl
  refine ⟨h.ledger.accept hfresh hnumber, h.paths, h.disk, fun i e r phase he htask => ?_,
    fun i j e e' scratch he he' hs hs' => ?_⟩
  · rcases getElem?_concat_some he with he | ⟨-, rfl⟩
    · exact h.staged i e r phase he htask
    · obtain ⟨hconfig, hworkDir⟩ := hrender r phase htask
      subst htask
      cases phase with
      | makeRoot => exact ⟨hconfig, hworkDir, fun hne => absurd rfl hne, nofun, trivial, rfl⟩
      | _ => exact hfresh.elim
  · rcases getElem?_concat_some he with he | ⟨-, rfl⟩
    · rcases getElem?_concat_some he' with he' | ⟨-, rfl⟩
      · exact h.apart i j e e' scratch he he' hs hs'
      · rw [hscratch] at hs'
        cases hs'
    · rw [hscratch] at hs
      cases hs

/-- A step of a request is gentle, and the request is as far as it says after it. -/
theorem errand (h : Isolated config b root D W d₀ ⟨stores, d, errands⟩)
    (hu : Usable config root D W d₀) {i : Nat} {e e' : Errand} {store store' : Store}
    (he : errands[i]? = some e) (hs : stores[e.store]? = some store)
    (hstep : Errand.Step (.isolated config b W) e store d e' store' d') :
    e.Gentle config root D W d e' d' ∧ InUse config root D W d₀ d' ∧ store'.dir = store.dir ∧
      e'.task.Settled store.dir D d' ∧ ∀ r phase, e'.task = .render r phase →
        Staged config b root D W r phase e'.work d' := by
  obtain ⟨st, hst, hset⟩ := h.ledger.settled i e he
  rw [show stores[e.store]? = some store from hs] at hst
  cases hst
  have hdir := h.paths store (List.mem_of_getElem? hs)
  have hstill : e.task.Still → e.Gentle config root D W d e' d' ∧ InUse config root D W d₀ d' ∧
      store'.dir = store.dir ∧ e'.task.Settled store.dir D d' ∧
      ∀ r phase, e'.task = .render r phase → Staged config b root D W r phase e'.work d' := by
    intro hs
    have hgentle : e.Gentle config root D W d e' d' := hstep.gentle_still hs
    obtain ⟨rfl, rfl, -, hs'⟩ := hstep.still hs
    refine ⟨hgentle, h.disk, rfl, hs'.settled _ _ _, fun r phase htask => ?_⟩
    rw [htask] at hs'
    exact hs'.elim
  obtain ⟨task, number, work⟩ := e
  cases task with
  | save s phase =>
    obtain ⟨hoff, hgentle⟩ := hstep.gentle_save (W := W) hset
    have hd' := h.disk.records hoff
    refine ⟨hgentle, hd', hstep.dir_save hset,
      hstep.settled_save (Rules.isolated_confined config b W) hset ?_, fun r phase' htask => ?_⟩
    · rw [hdir]
      exact hd'.opens hu
    · cases hstep <;> cases htask
  | render r phase =>
    obtain ⟨rfl, -, -⟩ := hstep.render
    obtain ⟨phase', htask, hstaged, hready, hgentle⟩ :=
      (h.staged i _ r phase he rfl).gentle hu h.disk hstep
    refine ⟨hgentle, .inr hready, rfl, ?_, fun r' p htask' => ?_⟩
    · rw [htask]
      exact trivial
    · rw [htask] at htask'
      cases htask'
      exact hstaged
  | list phase => exact hstill trivial
  | answered response => exact hstill trivial

theorem move (h : Isolated config b root D W d₀ ⟨stores, d, errands⟩)
    (hu : Usable config root D W d₀) {i : Nat} {e e' : Errand} {store store' : Store}
    (he : errands[i]? = some e) (hs : stores[e.store]? = some store)
    (hstep : Errand.Step (.isolated config b W) e store d e' store' d') :
    Isolated config b root D W d₀ ⟨stores.set e.store store', d', errands.set i e'⟩ := by
  obtain ⟨hgentle, hd', hdir, hset', hstaged'⟩ := h.errand hu he hs hstep
  have hopens : ∀ st ∈ stores, d'.Opens st.dir D := by
    intro st hst
    rw [h.paths st hst]
    exact hd'.opens hu
  -- the scratch directory of another rendering is there, so none is made under its name
  have hnew : ∀ (j : Nat) (f : Errand) scratch, j ≠ i → errands[j]? = some f →
      f.task.scratch? = some scratch → e'.task.scratch? ≠ some scratch := by
    intro j f scratch hji hf hscratch hscratch'
    rcases hgentle.lodging with heq | heq | ⟨ending, -, heq, hnone⟩ <;> rw [heq] at hscratch'
    · exact hji (h.apart j i f e scratch hf he hscratch hscratch')
    · cases hscratch'
    · cases htask : f.task with
      | render r phase =>
        rw [htask] at hscratch
        obtain ⟨ending', hl⟩ := (h.staged j f r phase hf htask).stage.lodges hscratch
        cases hscratch'
        obtain rfl := Scratch.named_injective hl.eq
        rw [hl.get] at hnone
        cases hnone
      | _ =>
        rw [htask] at hscratch
        cases hscratch
  refine ⟨h.ledger.move he hs hdir hgentle.harmless hset' hopens, fun st hst => ?_, hd',
    fun j f r phase hf htask => ?_, fun j k f g scratch hf hg hj hk => ?_⟩
  · rcases List.mem_or_eq_of_mem_set hst with hst | rfl
    · exact h.paths st hst
    · rw [hdir]
      exact h.paths store (List.mem_of_getElem? hs)
  · rcases getElem?_set_some hf with ⟨-, rfl⟩ | ⟨hji, hf⟩
    · exact hstaged' r phase htask
    · have hstaged := h.staged j f r phase hf htask
      refine hstaged.kept hgentle.ready ?_
      rintro q ⟨ending, -, hphase, hq⟩
      have hroot : phase ≠ .makeRoot := by
        rintro rfl
        cases hphase
      have hscratch : f.task.scratch? = some (.named root ending) := by
        rw [htask]
        exact hphase
      exact hgentle.get (hstaged.ready hroot) ending (hstaged.apart ending hphase)
        (fun heq => hji (h.apart j i f e _ hf he hscratch heq)) (hnew j f _ hji hf hscratch) q hq
  · rcases getElem?_set_some hf with ⟨rfl, rfl⟩ | ⟨hji, hfj⟩
    · rcases getElem?_set_some hg with ⟨rfl, rfl⟩ | ⟨hki, hg⟩
      · rfl
      · exact absurd hj (hnew k g scratch hki hg hk)
    · rcases getElem?_set_some hg with ⟨rfl, rfl⟩ | ⟨hki, hgk⟩
      · exact absurd hk (hnew j f scratch hji hfj hj)
      · exact h.apart j k f g scratch hfj hgk hj hk

theorem step (h : Isolated config b root D W d₀ w) (hu : Usable config root D W d₀)
    (hstep : World.Step (.isolated config b W) w w') : Isolated config b root D W d₀ w' := by
  cases hstep with
  | accept stores d errands task number hadmits => exact h.accept hadmits.1 hadmits.2.1 hadmits.2.2
  | move stores d errands i e store e' store' d' he hs hmove => exact h.move hu he hs hmove
  | reopen _ _ _ _ _ _ hopen => exact hopen.elim

theorem run (h : Isolated config b root D W d₀ w) (hu : Usable config root D W d₀) {n : Nat}
    (hrun : World.Run (.isolated config b W) n w w') : Isolated config b root D W d₀ w' :=
  hrun.keeps (fun _ _ hs h => h.step hu hs) h

/-- The rendering of a request that has been answered shows what the renderer makes of its text. -/
theorem shows (h : Isolated config b root D W d₀ w) {i : Nat} {e : Errand} {r : Rendering}
    {phase : Rendering.Phase} {response : Http.Response} (he : w.errands[i]? = some e)
    (htask : e.task = .render r phase) (hresponse : e.task.response? = some response) :
    r.config = config.renderer ∧ r.workDir = config.workDir ∧
      response = .ofRender (b.result config.renderer (Utf8.encode r.text)) := by
  have hstaged := h.staged i e r phase he htask
  rw [htask] at hresponse
  cases phase with
  | done result =>
    cases hresponse
    have hshows : b.Shows r.config (Utf8.encode r.text) result := hstaged.stage
    rw [hstaged.renderer] at hshows
    exact ⟨hstaged.renderer, hstaged.workDir, hshows⟩
  | _ => cases hresponse

end Isolated

/-- An image that a client gets to see is the one that the renderer makes of the source. -/
theorem Behaviour.image_of_result {b : Behaviour} {config : RendererConfig} {source image : Bytes}
    (h : b.result config source = .ok image) : b.image source = some image := by
  unfold result at h
  split at h
  · cases h
  · cases h
  · cases h
  · split at h
    · split at h
      · next heq =>
        cases h
        exact heq
      · cases h
    · cases h

/-- The answer to a request to render is the one that it gets alone, whatever else goes on. If it is
an image, it is the image of the trimmed text of the request. -/
theorem concurrent_renders_are_isolated (config : Config) (b : Behaviour) (root : Path)
    (D W : Place) (d : Disk) (hu : Usable config root D W d) (store : Store) (hdir : store.dir = config.saveDir)
    {n m : Nat} {v w : World} (hrun : World.Run (.isolated config b W) n ⟨[store], d, []⟩ w)
    (hbefore : World.Run (.isolated config b W) m ⟨[store], d, []⟩ v) :
    ∀ (i : Nat) (e : Errand) (r : Rendering) (phase : Rendering.Phase) (response : Http.Response)
      (request : Http.Request), w.errands[i]? = some e → e.task = .render r phase →
      e.task.response? = some response → Http.Action.ofRequest request = .render r.text →
      (∀ (store' : Store) (setting : Setting), setting.renderer.Follows b →
        (∀ d', v.disk.makeDirs config.workDir = (.ok (), d') → Scratch.Free W setting.endings d') →
        response.finished request =
          (Service.handle ⟨config, store', v.disk⟩ setting request).1) ∧
      ∃ body rest, DiagramRequest.read request.body = .ok (body, rest) ∧
        ((response.finished request).status = 200 →
          b.image (Utf8.encode (Text.trim body.uml)) = some (response.finished request).body) := by
  intro i e r phase response request he htask hresponse hrequest
  have hstart : Isolated config b root D W d ⟨[store], d, []⟩ := .start hu hdir
  obtain ⟨hconfig, hworkDir, hshows⟩ := (hstart.run hu hrun).shows he htask hresponse
  obtain ⟨htext, hmethod⟩ := Http.Action.of_render hrequest
  refine ⟨fun store' setting hfollows hfree => ?_, ?_⟩
  · obtain ⟨d', hmade, hready⟩ := (hstart.run hu hbefore).disk.made hu
    have hroom : Rendering.Room r.workDir root W d' := by
      rw [hworkDir]
      exact hready.room hu.fits
    have halone : b.Shows r.config (Utf8.encode r.text)
        (r.perform setting.renderer setting.endings v.disk (setting.clock 0)).1 :=
      Rendering.perform_shows (by rw [hworkDir]; exact hmade) hroom (hfree d' hmade) hfollows _
    have hr : r = ⟨config.renderer, config.workDir, r.text⟩ := by
      rw [← hconfig, ← hworkDir]
    unfold Service.handle
    rw [hrequest, hshows, ← hconfig, ← halone]
    simp only [Service.act, Service.render]
    rw [← hr]
  · obtain ⟨body, rest, hread, hbody⟩ := Http.Request.text_ok htext
    refine ⟨body, rest, hread, fun hstatus => ?_⟩
    rw [Http.Response.finished_status, hshows] at hstatus
    obtain ⟨image, hresult, himage⟩ := Http.Response.ofRender_ok hstatus
    rw [Http.Response.finished_body _ hmethod, hshows, himage, ← hbody]
    exact Behaviour.image_of_result hresult

/-! ## Two renderings and a save -/

/-- A renderer whose image is the source itself. -/
def tracing : Behaviour := ⟨fun _ => .ended (some 0) [], some⟩

/-- It copies the source. -/
def copier : Renderer := fun source d =>
  match d.contentAt source with
  | .ok text => (.ended (some 0) [], d.leave (renderedImagePath source) (.file text 5))
  | .error _ => (.ended (some 0) [], d)

/-- The copy is left beside the source. -/
theorem copier_run {dir : Path} {d : Disk} {S : Place} {text : Bytes} {time : Int}
    (hopens : d.Opens dir S) (hs : Disk.Spelled (dir.join scratchSource))
    (hget : d.get? (scratchSource :: S) = some (.file text time)) :
    copier (dir.join scratchSource) d =
      (.ended (some 0) [], d.set (scratchImage :: S) (.file text 5)) := by
  have hs' : Disk.Spelled (dir.join scratchImage) :=
    hs.join_of_le scratchImage_ordinary (by decide) (by decide)
  rw [copier, hopens.contentAt_file scratchSource_ordinary hs hget]
  simp only [renderedImagePath_scratch, hopens.leave scratchImage_ordinary hs']

theorem copier_follows : copier.Follows tracing := by
  intro dir d S text time hopens hs hget
  rw [copier_run hopens hs hget]
  refine ⟨rfl, ?_, fun _ => ⟨5, Disk.get?_set_self d (List.cons_ne_nil _ _) _⟩⟩
  exact Disk.agreesOff_set d ⟨S, hopens, List.suffix_cons _ _, List.cons_ne_self _ _⟩ _

/-- The shelf with an empty work directory beside it. -/
def workshop : Disk := emptyShelf.set ["work".toList] .directory

def workshopConfig : Config := ⟨.standard, ⟨"saved".toList⟩, ⟨"work".toList⟩⟩

/-- Nothing is below the two directories. -/
theorem get?_workshop {q : Place} (h : 1 < q.length) : workshop.get? q = none := by
  match q with
  | name :: name' :: q =>
    refine Classical.byContradiction fun hne => ?_
    rw [workshop, Disk.get?_set_of_ne _ (by simp)] at hne
    cases (get?_emptyShelf hne).2

theorem workshop_usable : Usable workshopConfig ⟨"/work".toList⟩ ["saved".toList] ["work".toList]
    workshop := by
  have hwork : Disk.Ordinary "work".toList :=
    ⟨by decide, by decide, by decide, by decide, by decide⟩
  have hopen : ∀ e : Disk, e.working = [] → e.get? ["saved".toList] = some .directory →
      e.get? ["work".toList] = some .directory →
      e.makeDirs ⟨"work".toList⟩ = (.ok (), e) ∧ e.Opens ⟨"/work".toList⟩ ["work".toList] ∧
      e.Opens ⟨"saved".toList⟩ ["saved".toList] := fun e hw hsaved hget =>
    ⟨(Disk.opens_name hwork hw hget).makeDirs_done fun _ => ⟨by decide, by decide, by decide⟩,
      Disk.opens_rooted hwork hget, Disk.opens_name saved_ordinary hw hsaved⟩
  have hbelow : ∀ (ending : List Char) (name : FileName),
      ¬ Scratch.placeOf ["work".toList] ending <:+ [name] := fun ending name hs =>
    absurd hs.length_le (by simp [Scratch.placeOf])
  have htouched : ∀ name : FileName, ¬ Touched ["saved".toList] ["work".toList] [name] := by
    rintro name (⟨id, heq | heq⟩ | ⟨ending, -, -, hs⟩)
    · cases heq
    · cases heq
    · exact hbelow ending name hs
  refine ⟨.of_lt (by decide) (by decide), fun e he => ?_⟩
  have hsaved : e.get? ["saved".toList] = some .directory :=
    (he.get _ fun hq => htouched _ (.inl hq)).trans (by rfl)
  have hget : e.get? ["work".toList] = some .directory :=
    (he.get _ fun hq => htouched _ (.inl hq)).trans (by rfl)
  obtain ⟨hmade, -, hopens⟩ := hopen e he.working hsaved hget
  refine ⟨hopens, e, hmade, ?_, hsaved, fun ending _ _ q hq => ?_, fun e' he' => ?_⟩
  · exact (absolute_eq he.working _).trans (by decide)
  · rw [get?_below he (hbelow ending _) hq]
    exact get?_workshop hq.length_le
  · exact hopen e' (he'.working.trans he.working) ((he'.get _ (htouched _)).trans hsaved)
      ((he'.get _ (htouched _)).trans hget)

/-- Tells that some of the names that are drawn is free. -/
def Scratch.hasFree (W : Place) (endings : List (List Char)) (d : Disk) : Bool :=
  endings.all (fun ending => ending.length == 6 && ending.all endingChars.toList.contains) &&
    endings.any fun ending => (d.get? (placeOf W ending)).isNone

theorem Scratch.free_of_hasFree {W : Place} {endings : List (List Char)} {d : Disk}
    (h : hasFree W endings d) : Free W endings d := by
  simp only [hasFree, Bool.and_eq_true, List.all_eq_true, List.any_eq_true, beq_iff_eq,
    List.contains_iff_mem, Array.mem_toList_iff, Option.isNone_iff_eq_none] at h
  exact ⟨fun ending hmem => ⟨(h.1 ending hmem).1, (h.1 ending hmem).2⟩, h.2⟩

/-- A turn of renderings and saves whose renderers end well. That of a rendering has left its source
as the image. -/
def Turn.fair (config : Config) (W : Place) (w : World) : Turn → Bool
  | .accept (.render r .makeRoot) _ => r.config == config.renderer && r.workDir == config.workDir
  | .accept (.save _ .makeDir) _ => true
  | .accept _ _ => false
  | .go i (.advance endings _) =>
    match w.errands[i]? with
    | some (Errand.mk (.render _ .allocate) _ _) => Scratch.hasFree W endings w.disk
    | _ => true
  | .go _ .begin => true
  | .go _ (.leave _) => true
  | .go i (.finish outcome) =>
    outcome == .ended (some 0) [] &&
    match w.errands[i]? with
    | some (Errand.mk (.render _ (.invoke scratch _)) _ (.running (some given))) =>
      match w.disk.find .keep scratch.files.image with
      | .ok (_, .file content _) => content == given
      | _ => false
    | some (Errand.mk (.render _ _) _ _) => false
    | _ => true

namespace Isolated

variable {config : Config} {root : Path} {D W : Place} {d₀ : Disk} {w w' : World}

/-- What a renderer leaves at its image path is inside of the scratch directory. -/
theorem agreesOff_leave (h : Isolated config tracing root D W d₀ w) {i : Nat} {e : Errand}
    (he : w.errands[i]? = some e) {r : Rendering} {scratch : Scratch}
    (htask : e.task = .render r (.invoke scratch .run)) (x : Entry) :
    Disk.AgreesOff (Inside w.disk scratch.dir) w.disk
      (w.disk.leave (renderedImagePath scratch.files.source) x) := by
  have hstaged := h.staged i e r _ he htask
  obtain ⟨ending, hl⟩ := hstaged.stage.lodges rfl
  have hopens := hl.opens ((hstaged.ready nofun).kept _ (.refl _ _)).2.1
  refine (Disk.agreesOff_leave w.disk _ x).mono fun q hq => ?_
  have himage : renderedImagePath scratch.files.source = scratch.dir.join scratchImage := by
    rw [hl.eq]
    exact renderedImagePath_scratch _
  rw [himage] at hq
  obtain rfl := hopens.at_join scratchImage_ordinary hq
  exact ⟨_, hopens, List.suffix_cons _ _, List.cons_ne_self _ _⟩

/-- An image that is a copy of the source has been left. -/
theorem leaves_copy (h : Isolated config tracing root D W d₀ w) (hu : Usable config root D W d₀)
    {i : Nat} {e : Errand} (he : w.errands[i]? = some e) {r : Rendering} {scratch : Scratch}
    {phase : Invocation.Phase} (htask : e.task = .render r (.invoke scratch phase)) {q S : Place}
    {content : Bytes} {time : Int} (hopens : w.disk.Opens scratch.dir S)
    (hfind : w.disk.find .keep scratch.files.image = .ok (q, .file content time)) :
    tracing.Leaves content (w.disk.get? (scratchImage :: S)) := by
  obtain ⟨ending, hl⟩ := (h.staged i e r _ he htask).stage.lodges rfl
  have hs : Disk.Spelled (scratch.dir.join scratchImage) := by
    rw [hl.eq]
    exact hu.fits.spelled_image hl.drawn
  have himage : scratch.files.image = scratch.dir.join scratchImage := by
    rw [hl.eq]
    exact Rendering.image_named root ending
  rw [himage] at hfind
  unfold Disk.find at hfind
  cases hget : w.disk.get? (scratchImage :: S) with
  | none =>
    rw [hopens.locate_missing scratchImage_ordinary hs .keep hget] at hfind
    cases hfind
  | some x =>
    rw [hopens.locate_found scratchImage_ordinary hs .keep hget fun _ _ => rfl] at hfind
    cases hfind
    exact ⟨time, rfl⟩

theorem permits (h : Isolated config tracing root D W d₀ w) (hu : Usable config root D W d₀)
    {turn : Turn} (hturn : w.turn? turn = some w') (hfair : turn.fair config W w) :
    (Rules.isolated config tracing W).Permits w turn := by
  cases turn with
  | accept task number =>
    simp only [World.turn?] at hturn
    split at hturn
    · next hnumber =>
      unfold Turn.fair at hfair
      split at hfair
      · next r _ heq =>
        cases heq
        simp only [Bool.and_eq_true, beq_iff_eq] at hfair
        exact ⟨trivial, hnumber, fun r' phase htask => by cases htask; exact hfair⟩
      · next heq =>
        cases heq
        exact ⟨trivial, hnumber, fun _ _ htask => by cases htask⟩
      · cases hfair
      all_goals next heq => cases heq
    · cases hturn
  | go i move =>
    cases move with
    | advance endings now =>
      refine ⟨trivial, fun e he r htask => ?_⟩
      obtain ⟨task, number, work⟩ := e
      subst htask
      exact Scratch.free_of_hasFree (by simpa only [Turn.fair, he] using hfair)
    | begin => exact trivial
    | leave x =>
      intro e source he hwait
      refine ⟨fun s phase source' htask hwait' => ?_, fun r scratch phase htask => ?_⟩
      · rw [htask] at hwait
        rw [Option.some.inj (hwait.symm.trans hwait')]
        exact Disk.agreesOff_leave _ _ x
      · rw [htask] at hwait
        obtain ⟨scratch', heq, rfl⟩ := eq_invoke_of_waiting? hwait
        cases heq
        exact h.agreesOff_leave he htask x
    | finish outcome =>
      intro e given he hwork r scratch phase htask S text hopens hgiven
      obtain ⟨task, number, work⟩ := e
      subst hwork htask hgiven
      simp only [Turn.fair, he, Bool.and_eq_true, beq_iff_eq] at hfair
      obtain ⟨rfl, hfair⟩ := hfair
      refine ⟨rfl, fun _ => ?_⟩
      split at hfair
      · next q content time hfind =>
        rw [← beq_iff_eq.mp hfair]
        exact h.leaves_copy hu he rfl hopens hfind
      · cases hfair

end Isolated

/-- Two renderings take turns with each other and with a save. The name that was drawn first for the
second is taken already. -/
def twoRenderings : List Turn :=
  [.accept (.render ⟨.standard, ⟨"work".toList⟩, "a"⟩ .makeRoot) 0,
    .accept (.render ⟨.standard, ⟨"work".toList⟩, "b"⟩ .makeRoot) 0,
    .accept (.save ⟨.standard, "c"⟩ .makeDir) 0] ++
    Turn.steps 0 1 5 ++ Turn.steps 1 1 5 ++ Turn.steps 2 4 5 ++
    [.go 0 (.advance ["aaaaaa".toList] 5),
      .go 1 (.advance ["aaaaaa".toList, "baaaaa".toList] 5)] ++
    Turn.steps 1 2 5 ++ Turn.steps 0 2 5 ++
    [.go 0 .begin, .go 1 .begin, .go 1 (.leave (.file (Utf8.encode "b") 5)),
      .go 0 (.leave (.file (Utf8.encode "a") 5)), .go 0 (.finish (.ended (some 0) [])),
      .go 1 (.finish (.ended (some 0) []))] ++
    Turn.steps 1 1 5 ++ Turn.steps 0 2 5 ++ Turn.steps 2 2 5 ++ Turn.steps 1 1 5

/-- Both renderings have an image. -/
def bothRendered (w : World) : Bool :=
  match w.errands with
  | [Errand.mk (.render r (.done (.ok _))) _ _, Errand.mk (.render r' (.done (.ok _))) _ _, _] =>
    r.text == "a" && r'.text == "b"
  | _ => false

/-- A request to render a text. -/
def renderRequest (text : String) : Http.Request :=
  ⟨"POST", "/render", [.ofText "content-type" "application/json"],
    Utf8.encode ("[\"" ++ text ++ "\"]")⟩

/-- What a renderer that copies is run in. -/
def copying : Setting := ⟨copier, ["aaaaaa".toList], fun _ => 5⟩

theorem renderRequest_asks : Http.Action.ofRequest (renderRequest "a") = .render "a" ∧
    Http.Action.ofRequest (renderRequest "b") = .render "b" := by
  have hask : ∀ text, (renderRequest text).path = "/render".toList →
      (renderRequest text).text.toOption = some text →
      Http.Action.ofRequest (renderRequest text) = .render text := by
    intro text hpath htext
    rw [Http.Action.ofRequest_render rfl hpath, Http.Request.text_of_toOption htext]
  exact ⟨hask "a" (by decide +kernel) (by decide +kernel),
    hask "b" (by decide +kernel) (by decide +kernel)⟩

/-- Each of the two gets the answer that it gets alone, which is the image of its own text. -/
theorem workshop_renders_are_isolated : ∃ (w : World) (e e' : Errand)
    (response response' : Http.Response),
    World.Run (.isolated workshopConfig tracing ["work".toList]) twoRenderings.length
      ⟨[.open_ ⟨"saved".toList⟩], workshop, []⟩ w ∧
    w.errands[0]? = some e ∧ w.errands[1]? = some e' ∧
    e.task.response? = some response ∧ e'.task.response? = some response' ∧
    response.finished (renderRequest "a") = (Service.handle
      ⟨workshopConfig, .open_ ⟨"saved".toList⟩, workshop⟩ copying (renderRequest "a")).1 ∧
    response'.finished (renderRequest "b") = (Service.handle
      ⟨workshopConfig, .open_ ⟨"saved".toList⟩, workshop⟩ copying (renderRequest "b")).1 ∧
    (response.finished (renderRequest "a")).status = 200 ∧
    (response'.finished (renderRequest "b")).status = 200 ∧
    (∃ body rest, DiagramRequest.read (renderRequest "a").body = .ok (body, rest) ∧
      (response.finished (renderRequest "a")).body = Utf8.encode (Text.trim body.uml)) ∧
    ∃ body rest, DiagramRequest.read (renderRequest "b").body = .ok (body, rest) ∧
      (response'.finished (renderRequest "b")).body = Utf8.encode (Text.trim body.uml) := by
  have h : (((World.mk [.open_ ⟨"saved".toList⟩] workshop []).play?
      (Turn.fair workshopConfig ["work".toList]) twoRenderings).any bothRendered) = true := by cbv
  obtain ⟨w, hw, h⟩ := (Option.any_eq_true _ _).mp h
  have hstart : Isolated workshopConfig tracing ⟨"/work".toList⟩ ["saved".toList] ["work".toList]
      workshop ⟨[.open_ ⟨"saved".toList⟩], workshop, []⟩ := .start workshop_usable rfl
  have hrun : World.Run (.isolated workshopConfig tracing ["work".toList]) twoRenderings.length
      ⟨[.open_ ⟨"saved".toList⟩], workshop, []⟩ w :=
    .of_play hstart hw fun v v' turn hv hturn hfair =>
      have hpermits := hv.permits workshop_usable hturn hfair
      ⟨hpermits, hv.step workshop_usable (.of_turn hturn hpermits)⟩
  have hanswers := concurrent_renders_are_isolated workshopConfig tracing ⟨"/work".toList⟩ _ _ _
    workshop_usable (.open_ ⟨"saved".toList⟩) rfl hrun (.refl _)
  have hfree : ∀ d', workshop.makeDirs workshopConfig.workDir = (.ok (), d') →
      Scratch.Free ["work".toList] copying.endings d' := by
    intro d' hmade
    have hsame : workshop.makeDirs workshopConfig.workDir = (.ok (), workshop) := by cbv
    rw [hsame] at hmade
    cases hmade
    exact Scratch.free_of_hasFree (by cbv)
  obtain ⟨hask, hask'⟩ := renderRequest_asks
  unfold bothRendered at h
  split at h
  · next r image number work r' image' number' work' e'' herrands =>
    simp only [Bool.and_eq_true, beq_iff_eq] at h
    have he : w.errands[0]? = some ⟨.render r (.done (.ok image)), number, work⟩ := by
      rw [herrands]; rfl
    have he' : w.errands[1]? = some ⟨.render r' (.done (.ok image')), number', work'⟩ := by
      rw [herrands]; rfl
    have hstatus : ∀ (image : Bytes) request,
        ((Http.Response.ofRender (.ok image)).finished request).status = 200 := fun image request =>
      Http.Response.finished_status _ request
    obtain ⟨halone, body, rest, hread, himage⟩ :=
      hanswers 0 _ r (.done (.ok image)) _ (renderRequest "a") he rfl rfl
        (by rw [h.1]; exact hask)
    obtain ⟨halone', body', rest', hread', himage'⟩ :=
      hanswers 1 _ r' (.done (.ok image')) _ (renderRequest "b") he' rfl rfl
        (by rw [h.2]; exact hask')
    exact ⟨w, _, _, _, _, hrun, he, he', rfl, rfl, halone _ copying copier_follows hfree,
      halone' _ copying copier_follows hfree, hstatus _ _, hstatus _ _,
      ⟨body, rest, hread, (Option.some.inj (himage (hstatus _ _))).symm⟩,
      ⟨body', rest', hread', (Option.some.inj (himage' (hstatus _ _))).symm⟩⟩
  · cases h

end DiagramService
