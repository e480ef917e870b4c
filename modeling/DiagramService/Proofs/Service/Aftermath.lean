import Mathlib
import DiagramService.Proofs.Service.Clearing
import DiagramService.Proofs.Service.Housing
import DiagramService.Proofs.Service.Schedule

/-! After the processes of a renderer have been killed. What a call reads or removes then is what it
leaves: an image that was returned or stored stays as it was read, the files of a save that has
failed stay away, and so does a scratch directory. -/

namespace DiagramService

/-! ## Calls that are over -/

/-- A call that does nothing any more. -/
def Call.Over (call : Call) : Prop :=
  call.running? = none ∧
    ∀ endings store d now, call.step endings store d now = (call, store, d)

/-- After a call is over nothing changes. -/
theorem Scene.Run.over {w w' : Scene} (h : Run w w') (hw : w.Attended) (hover : w.call.Over) :
    w'.call = w.call ∧ w'.disk = w.disk := by
  refine h.keeps_call (P := fun call d => call = w.call ∧ d = w.disk) ?_ hw ⟨rfl, rfl⟩
  rintro v v' hmove ⟨hcall, hdisk⟩
  cases hmove with
  | advance endings now hwait hrun hdraw hcall' hdisk' =>
    rw [hcall, hover.2] at hcall' hdisk'
    exact ⟨hcall', hdisk'.trans hdisk⟩
  | wait i hwait =>
    rw [hcall, hover.1] at hwait
    cases hwait
  | hear i outcome hwait =>
    rw [hcall, hover.1] at hwait
    cases hwait

theorem Call.over_invoke (i : Invocation) (result : Except RenderError Bytes) :
    (Call.invoke i (.done result)).Over :=
  ⟨rfl, fun _ _ _ _ => rfl⟩

theorem Call.over_save (s : Save) (result : Except RenderError SavedDiagram) :
    (Call.request (.save s (.done result))).Over :=
  ⟨rfl, fun _ _ _ _ => rfl⟩

theorem Call.over_render (r : Rendering) (result : Except RenderError Bytes) :
    (Call.request (.render r (.done result))).Over :=
  ⟨rfl, fun _ _ _ _ => rfl⟩

/-! ## An invocation -/

/-- What an invocation has returned is what its image holds. -/
def Call.Returns (i : Invocation) (call : Call) (d : Disk) : Prop :=
  ∃ phase, call = .invoke i phase ∧
    ∀ content, phase = .done (.ok content) → d.contentAt i.files.image = .ok content

theorem Scene.Move.returns {i : Invocation} {w w' : Scene} (h : Move w w')
    (hw : w.call.Returns i w.disk) : w'.call.Returns i w'.disk := by
  obtain ⟨phase, hcall, hreturned⟩ := hw
  cases h with
  | advance endings now hwait hrun hdraw hcall' hdisk' =>
    rw [hcall] at hcall' hdisk'
    refine ⟨_, hcall', fun content hcontent => ?_⟩
    obtain ⟨hsame, hdone | hread⟩ := Invocation.step_returns hcontent
    · rw [hdisk']
      exact (congrArg (Disk.contentAt · _) hsame).trans (hreturned content hdone)
    · rw [hdisk']
      exact (congrArg (Disk.contentAt · _) hsame).trans hread
  | wait j hwait hcall' =>
    refine ⟨phase, hcall'.trans hcall, fun content hcontent => ?_⟩
    rw [hcall, hcontent] at hwait
    cases hwait
  | hear j outcome hwait hrun hcall' =>
    rw [hcall] at hwait hcall'
    refine ⟨_, hcall', fun content hcontent => ?_⟩
    cases phase with
    | run =>
      obtain hread | ⟨error, herror⟩ := i.afterRun_cases outcome
      · exact nomatch hread.symm.trans hcontent
      · exact nomatch herror.symm.trans hcontent
    | _ => cases hwait

/-! ## What is left -/

section Aftermath

variable {s : Save} {r : Rendering} {w w' : Scene}

/-- The scene in which a save begins. -/
def Scene.ofSave (s : Save) (store : Store) (d : Disk) : Scene :=
  alone (.request (.save s .makeDir)) store d

/-- The scene in which a rendering begins. -/
def Scene.ofRender (r : Rendering) (store : Store) (d : Disk) : Scene :=
  alone (.request (.render r .makeRoot)) store d

theorem Scene.Run.careful {store : Store} {d : Disk} (h : Run (.ofSave s store d) w) :
    w.call.Saves s Save.Careful w.disk :=
  h.keeps_call (fun _ _ hmove => hmove.careful) (attended_alone _ _ _) ⟨_, rfl, .makeDir⟩

theorem Scene.Run.settled {store : Store} {d : Disk} (h : Run (.ofRender r store d) w) :
    w.call.Renders r Rendering.Settled w.disk :=
  h.keeps_call (fun _ _ hmove => hmove.settled) (attended_alone _ _ _) ⟨_, rfl, .inl rfl⟩

/-- A save that waits for its renderer, or has found no directory in the place of its image, is
ready to clear up. -/
theorem Scene.Run.clear {store : Store} {d : Disk} (h : Run (.ofSave s store d) w)
    {record : SavedDiagram} {inner : Invocation.Phase}
    (hcall : w.call = .request (.save s (.invoke record inner)))
    (himage : inner = .run ∨ w.disk.NoDirAt record.image) :
    ∃ dir id, record = .inDirectory dir id ∧
      Save.Clearing record w.disk (.invoke record inner) := by
  obtain ⟨phase, hcall', hcareful⟩ := h.careful
  rw [hcall] at hcall'
  cases hcall'
  cases hcareful with
  | invoke dir id _ hinner hsource himage' =>
    refine ⟨dir, id, rfl, .invoke inner hinner ⟨hsource, ?_⟩⟩
    obtain hrun | hnone := himage
    · exact himage' (.inl hrun)
    · exact hnone

end Aftermath

/-- Nothing is written after the service has looked. The renderer is any number of processes, each
of which writes and removes the image at any moment while it lives, until the group is killed.

What an invocation returns is what its image holds from then on. When a save has been successful its
image is there and never changes. When a save has failed whose renderer was to run, or that had
found no directory in the place of its image, neither of its files is ever there again. And when a
rendering is over its scratch directory is gone with everything in it and does not come back; what
the rendering returns is what the image held until then. -/
theorem nothing_is_written_after_the_look (store : Store) (d : Disk) :
    (∀ (i : Invocation) (content : Bytes) (w w' : Scene),
      Scene.Run (.alone (.invoke i .write) store d) w → w.call = .invoke i (.done (.ok content)) →
      Scene.Run w w' → w'.disk.contentAt i.files.image = .ok content) ∧
    (∀ (s : Save) (record : SavedDiagram) (w : Scene),
      Scene.Run (.ofSave s store d) w → w.call = .request (.save s (.done (.ok record))) →
      ∃ content, ∀ w', Scene.Run w w' → w'.disk.contentAt record.image = .ok content) ∧
    (∀ (s : Save) (record : SavedDiagram) (inner : Invocation.Phase) (error : RenderError)
      (w₁ w₂ w₃ : Scene), Scene.Run (.ofSave s store d) w₁ →
      w₁.call = .request (.save s (.invoke record inner)) →
      inner = .run ∨ w₁.disk.NoDirAt record.image →
      Scene.Run w₁ w₂ → w₂.call = .request (.save s (.done (.error error))) →
      Scene.Run w₂ w₃ → w₃.disk.Gone record.source ∧ w₃.disk.Gone record.image) ∧
    ∀ (r : Rendering) (scratch : Scratch) (inner : Invocation.Phase) (w₁ w₂ : Scene),
      Scene.Run (.ofRender r store d) w₁ →
      w₁.call = .request (.render r (.invoke scratch inner)) → Scene.Run w₁ w₂ →
      (∀ content, w₂.call = .request (.render r (.close scratch (.ok content))) →
        w₂.disk.contentAt scratch.files.image = .ok content) ∧
      ∀ result, w₂.call = .request (.render r (.done result)) → ∀ w₃, Scene.Run w₂ w₃ →
        w₃.disk.Gone scratch.dir ∧
        ∀ name, Disk.Ordinary name → w₃.disk.Gone (scratch.dir.join name) := by
  refine ⟨fun i content w w' hrun hcall hlater => ?_, fun s record w hrun hcall => ?_,
    fun s record inner error w₁ w₂ w₃ hrun hinvoke himage hrun' hcall hlater => ?_,
    fun r scratch inner w₁ w₂ hrun hinvoke hrun' => ?_⟩
  · have hattended := hrun.attended (Scene.attended_alone _ _ _)
    obtain ⟨phase, hphase, hreturned⟩ :=
      hrun.keeps_call (P := Call.Returns i) (fun _ _ hmove => hmove.returns)
        (Scene.attended_alone _ _ _) ⟨_, rfl, nofun⟩
    rw [hcall] at hphase
    cases hphase
    rw [(hlater.over hattended (hcall ▸ Call.over_invoke i _)).2]
    exact hreturned content rfl
  · have hattended := hrun.attended (Scene.attended_alone _ _ _)
    obtain ⟨phase, hphase, hcareful⟩ := hrun.careful
    rw [hcall] at hphase
    cases hphase
    cases hcareful with
    | done _ content himage =>
      refine ⟨content, fun w' hlater => ?_⟩
      rw [(hlater.over hattended (hcall ▸ Call.over_save s _)).2]
      exact himage
  · have hattended := hrun.attended (Scene.attended_alone _ _ _)
    have hattended' := hrun'.attended hattended
    obtain ⟨dir, id, rfl, hclearing⟩ := hrun.clear hinvoke himage
    obtain ⟨phase, hphase, hclearing'⟩ := hrun'.keeps_call (fun _ _ hmove => hmove.clearing)
      hattended ⟨_, hinvoke, hclearing⟩
    rw [hcall] at hphase
    cases hphase
    cases hclearing' with
    | failed _ habsent =>
      rw [(hlater.over hattended' (hcall ▸ Call.over_save s _)).2]
      exact habsent
  · have hattended := hrun.attended (Scene.attended_alone _ _ _)
    have hattended' := hrun'.attended hattended
    obtain ⟨phase, hphase, hsettled⟩ := hrun.settled
    rw [hinvoke] at hphase
    cases hphase
    obtain h | h | ⟨result, h⟩ | ⟨root, name, hn, hhoused⟩ := hsettled
    · cases h
    · cases h
    · cases h
    obtain ⟨phase, hphase, hhoused'⟩ := hrun'.keeps_call (fun _ _ hmove => hmove.housed hn)
      hattended ⟨_, hinvoke, hhoused⟩
    cases hhoused
    refine ⟨fun content hcall => ?_, fun result hcall w₃ hlater => ?_⟩
    · rw [hcall] at hphase
      cases hphase
      cases hhoused' with
      | close _ hdir himage => exact himage content rfl
    · rw [hcall] at hphase
      cases hphase
      cases hhoused' with
      | done _ hgone =>
        rw [(hlater.over hattended' (hcall ▸ Call.over_render r _)).2]
        exact ⟨hgone, fun other hother => hgone.join hn hother⟩

/-! ## A save whose renderer goes on after its time -/

/-- Some steps of a call while the clock shows one time. -/
def Scene.advanced (now : Int) : Nat → Scene → Scene
  | 0, w => w
  | n + 1, w =>
    let next := w.call.step [] w.store w.disk now
    advanced now n ⟨next.1, w.run, next.2.1, next.2.2⟩

/-- Whether a call takes some steps without waiting for its renderer. -/
def Scene.isFree (now : Int) : Nat → Scene → Bool
  | 0, _ => true
  | n + 1, w => w.call.running?.isNone && (w.advanced now 1).isFree now n

theorem Scene.run_advanced {now : Int} {n : Nat} {w : Scene} (h : w.isFree now n) :
    Run w (w.advanced now n) := by
  induction n generalizing w with
  | zero => exact .refl w
  | succ n ih =>
    simp only [isFree, Bool.and_eq_true, Option.isNone_iff_eq_none] at h
    have hstep : Step w (w.advanced now 1) := .advance w.call w.run w.store w.disk [] now h.1 nofun
    exact Run.trans (.tail (.refl w) hstep) (ih h.2)

theorem Scene.advanced_run (now : Int) (n : Nat) (w : Scene) : (w.advanced now n).run = w.run := by
  induction n generalizing w with
  | zero => rfl
  | succ n ih => exact ih _

/-- The leader writes an image and starts a helper, the time is over, and the helper writes another
image before it is killed. -/
theorem Scene.run_outlived {call : Call} {i : Invocation} (hwait : call.running? = some i)
    {limit : Nat} (hlimit : i.config.limit? = some limit) (store : Store) (d : Disk) (now : Int) :
    Run (alone call store d) (alone (call.hear .outlived) store
      ((d.writeFile i.files.image [1] now).2.writeFile i.files.image [1, 2] now).2) := by
  have hstart := Run.tail (.refl _) (.start call store d i hwait)
  have hwrite := hstart.tail
    (.act call _ store d _ _ _ rfl (.write _ d 0 [1] now List.mem_cons_self))
  have hfork := hwrite.tail (.act call _ store _ _ _ _ rfl (.fork _ _ 0 1 List.mem_cons_self nofun))
  have hexpire := hfork.tail (.expire call store _ _ i limit hwait hlimit)
  have hlate := hexpire.tail
    (.act call _ store _ _ _ _ rfl (.write _ _ 1 [1, 2] now List.mem_cons_self))
  have hkill := hlate.tail (.kill call store _ _ .expired ⟨[], []⟩)
  exact (hkill.tail (.reap call store _)).tail (.hear call store _ .outlived)

/-- A save of a text. -/
def shelfSave : Save := ⟨.standard, "a"⟩

/-- The record that it makes. -/
def shelfRecord : SavedDiagram := .inDirectory ⟨"saved".toList⟩ ⟨5⟩

/-- The save waits for its renderer. -/
def shelfWaiting : Scene :=
  (Scene.ofSave shelfSave (.open_ ⟨"saved".toList⟩) emptyShelf).advanced 5 6

theorem shelfWaiting_call :
    shelfWaiting.call = .request (.save shelfSave (.invoke shelfRecord .run)) := by cbv

theorem shelfWaiting_alone :
    Scene.alone shelfWaiting.call shelfWaiting.store shelfWaiting.disk = shelfWaiting := by
  have hrun : shelfWaiting.run = .idle := Scene.advanced_run _ _ _
  rw [Scene.alone, ← hrun]

/-- The save after its renderer has been killed. -/
def shelfHeard : Scene :=
  let image := (shelfSave.invocation shelfRecord).files.image
  .alone (shelfWaiting.call.hear .outlived) shelfWaiting.store
    ((shelfWaiting.disk.writeFile image [1] 5).2.writeFile image [1, 2] 5).2

theorem run_shelfHeard : Scene.Run shelfWaiting shelfHeard := by
  have hwait : shelfWaiting.call.running? = some (shelfSave.invocation shelfRecord) := by
    rw [shelfWaiting_call]
    rfl
  have hlimit : (shelfSave.invocation shelfRecord).config.limit? = some 60 := by decide
  have hrun := Scene.run_outlived hwait hlimit shelfWaiting.store shelfWaiting.disk 5
  rwa [shelfWaiting_alone] at hrun

theorem shelfHeard_over : (shelfHeard.advanced 5 6).call =
    .request (.save shelfSave (.done (.error (.timeout (.ofSeconds 60))))) := by cbv

/-- The images that were written before the kill are gone when the save is over, and so is its
source. -/
theorem shelfHeard_leaves_nothing :
    ∃ w, Scene.Run (.ofSave shelfSave (.open_ ⟨"saved".toList⟩) emptyShelf) w ∧
      w.call = .request (.save shelfSave (.done (.error (.timeout (.ofSeconds 60))))) ∧
      w.disk.Gone shelfRecord.source ∧ w.disk.Gone shelfRecord.image := by
  have hrun : Scene.Run (.ofSave shelfSave (.open_ ⟨"saved".toList⟩) emptyShelf) shelfWaiting :=
    Scene.run_advanced (by cbv)
  have hend : Scene.Run shelfWaiting (shelfHeard.advanced 5 6) :=
    run_shelfHeard.trans (Scene.run_advanced (by cbv))
  refine ⟨shelfHeard.advanced 5 6, hrun.trans hend, shelfHeard_over, ?_⟩
  obtain ⟨-, -, hfailed, -⟩ :=
    nothing_is_written_after_the_look (.open_ ⟨"saved".toList⟩) emptyShelf
  exact hfailed shelfSave shelfRecord .run (.timeout (.ofSeconds 60)) shelfWaiting _ _ hrun
    shelfWaiting_call (.inl rfl) hend shelfHeard_over (.refl _)

end DiagramService
