import DiagramService.Proofs.Render.Invocation
import DiagramService.Proofs.Service.Scene

/-! A rendering and the processes of its renderer. Nothing but a directory ever stands where the
scratch directory was made, so at the end it can be removed with all that is in it. -/

namespace DiagramService

namespace Rendering

/-- A rendering waits for its invocation while its renderer is to run, and at no other time. -/
theorem running?_eq_some {r : Rendering} {phase : Phase} {i : Invocation}
    (h : (Task.render r phase).running? = some i) :
    ∃ scratch, phase = .invoke scratch .run ∧ i = r.invocation scratch := by
  cases phase with
  | invoke scratch inner =>
    cases inner with
    | run =>
      cases h
      exact ⟨scratch, rfl, rfl⟩
    | _ => cases h
  | _ => cases h

/-- The scratch directory of a name in a root. -/
def scratchOf (root : Path) (name : FileName) : Scratch :=
  .atPath (root.join name)

/-- What a rendering knows of its scratch directory, if this is the one of the given name: nothing
else stands there until it is removed, and then it is gone. An image that was read is still there
until then. -/
inductive Housed (root : Path) (name : FileName) (d : Disk) : Phase → Prop
  | invoke (inner) (hinner : inner.result? = none) (hdir : d.OnlyDirAt (root.join name)) :
    Housed root name d (.invoke (scratchOf root name) inner)
  | close (result) (hdir : d.OnlyDirAt (root.join name))
    (himage : ∀ content, result = .ok content →
      d.contentAt (scratchOf root name).files.image = .ok content) :
    Housed root name d (.close (scratchOf root name) result)
  | done (result) (hgone : d.Gone (root.join name)) : Housed root name d (.done result)

section Housed

variable {root : Path} {name : FileName} {d d' : Disk} {phase : Phase}

theorem housed_goOn (hdir : d.OnlyDirAt (root.join name)) {inner : Invocation.Phase}
    (himage : ∀ content, inner = .done (.ok content) →
      d.contentAt (scratchOf root name).files.image = .ok content) :
    Housed root name d (goOn (scratchOf root name) inner) := by
  cases inner with
  | done result => exact .close result hdir fun content h => himage content (by rw [h])
  | _ => exact .invoke _ rfl hdir

/-- The image of a scratch directory is in it. -/
theorem image_scratchOf (root : Path) (name : FileName) :
    (scratchOf root name).files.image = (root.join name).join scratchImage :=
  renderedImagePath_scratch _

/-- An invocation in a scratch directory leaves it standing. -/
theorem onlyDirAt_step (r : Rendering) (hn : Disk.Ordinary name)
    (hdir : d.OnlyDirAt (root.join name)) (inner : Invocation.Phase) (now : Int) :
    ((r.invocation (scratchOf root name)).step inner d now).2.OnlyDirAt (root.join name) := by
  cases inner with
  | write =>
    have hwrite := hdir.writeFile hn scratchSource_ordinary (Utf8.encode r.text) now
    simp only [Invocation.step, Invocation.write]
    split
    · next h => exact (congrArg Prod.snd h) ▸ hwrite
    · next h => exact (congrArg Prod.snd h) ▸ hwrite
  | clear =>
    have hremove := hdir.shrinks (Disk.removeFile_shrinks d (scratchOf root name).files.image)
    simp only [Invocation.step, Invocation.clear]
    split
    · next h => exact (congrArg Prod.snd h) ▸ hremove
    · next h =>
      have hremove' := (congrArg Prod.snd h) ▸ hremove
      split <;> exact hremove'
  | _ => exact hdir

theorem Housed.touches (hn : Disk.Ordinary name)
    (h : Housed root name d (.invoke (scratchOf root name) .run))
    (hd : Touches (scratchOf root name).files.image d d') :
    Housed root name d' (.invoke (scratchOf root name) .run) := by
  cases h with
  | invoke _ hinner hdir =>
    refine .invoke .run rfl ?_
    cases hd with
    | none => exact hdir
    | write content now =>
      rw [image_scratchOf]
      exact hdir.writeFile hn scratchImage_ordinary content now
    | remove => exact hdir.shrinks (Disk.removeFile_shrinks d _)

theorem Housed.hear (h : Housed root name d (.invoke (scratchOf root name) .run)) (r : Rendering)
    (outcome : RunOutcome) :
    Housed root name d (r.hear (.invoke (scratchOf root name) .run) outcome) := by
  cases h with
  | invoke _ hinner hdir =>
    refine housed_goOn hdir fun content hcontent => ?_
    obtain hread | ⟨error, herror⟩ :=
      (r.invocation (scratchOf root name)).afterRun_cases outcome
    · exact nomatch hread.symm.trans hcontent
    · exact nomatch herror.symm.trans hcontent

theorem Housed.step (h : Housed root name d phase) (hn : Disk.Ordinary name) (r : Rendering)
    (endings : List (List Char)) (now : Int) :
    Housed root name (r.step phase endings d now).2 (r.step phase endings d now).1 := by
  cases h with
  | invoke inner hinner hdir =>
    refine housed_goOn (onlyDirAt_step r hn hdir inner now) fun content hcontent => ?_
    obtain ⟨hsame, hdone | hread⟩ := Invocation.step_returns hcontent
    · rw [hdone] at hinner
      cases hinner
    · rw [hsame]
      exact hread
  | close result hdir himage => exact .done result (Disk.removeTree_gone hn hdir)
  | done result hgone => exact .done result hgone

end Housed

/-- A rendering has no scratch directory yet, or it has been made under an ordinary name, or the
rendering is over. -/
def Settled (d : Disk) (phase : Phase) : Prop :=
  phase = .makeRoot ∨ phase = .allocate ∨ (∃ result, phase = .done result) ∨
    ∃ root name, Disk.Ordinary name ∧ Housed root name d phase

/-- A rendering that waits for its renderer has a scratch directory. -/
theorem Settled.housed {d : Disk} {r : Rendering} {phase : Phase} (h : Settled d phase)
    {i : Invocation} (hwait : (Task.render r phase).running? = some i) :
    ∃ root name, Disk.Ordinary name ∧ Housed root name d phase := by
  obtain ⟨scratch, rfl, -⟩ := running?_eq_some hwait
  obtain h | h | ⟨result, h⟩ | h := h
  · cases h
  · cases h
  · cases h
  · exact h

/-- A scratch directory is made under an ordinary name. -/
theorem allocateIn_housed {d d' : Disk} {root : Path} {endings : List (List Char)}
    (hdrawn : ∀ ending ∈ endings, Scratch.Drawn ending) {scratch : Scratch}
    (h : Scratch.allocateIn d root endings = (.ok scratch, d')) :
    ∃ name, Disk.Ordinary name ∧ scratch = scratchOf root name ∧ d'.OnlyDirAt (root.join name) := by
  obtain ⟨ending, hmem, rfl, hmake⟩ := Scratch.allocateIn_made h
  have hn := Scratch.ordinary_name (hdrawn ending hmem)
  exact ⟨_, hn, rfl, Disk.makeDir_onlyDirAt hn hmake⟩

theorem Settled.step {d : Disk} {phase : Phase} (h : Settled d phase) (r : Rendering)
    {endings : List (List Char)} (hdrawn : ∀ ending ∈ endings, Scratch.Drawn ending) (now : Int) :
    Settled (r.step phase endings d now).2 (r.step phase endings d now).1 := by
  obtain rfl | rfl | ⟨result, rfl⟩ | ⟨root, name, hn, hhoused⟩ := h
  · simp only [Rendering.step]
    split
    · exact .inr (.inl rfl)
    · exact .inr (.inr (.inl ⟨_, rfl⟩))
  · simp only [Rendering.step]
    split
    · next hallocate =>
      obtain ⟨name, hn, rfl, hdir⟩ := allocateIn_housed hdrawn hallocate
      exact .inr (.inr (.inr ⟨_, name, hn, .invoke .write rfl hdir⟩))
    · exact .inr (.inr (.inl ⟨_, rfl⟩))
  · exact .inr (.inr (.inl ⟨result, rfl⟩))
  · exact .inr (.inr (.inr ⟨root, name, hn, hhoused.step hn r endings now⟩))

end Rendering

/-! ## Renderings among processes -/

section Rendering

variable {r : Rendering}

/-- A phase of a rendering with a property. -/
def Call.Renders (r : Rendering) (P : Disk → Rendering.Phase → Prop) (call : Call) (d : Disk) :
    Prop :=
  ∃ phase, call = .request (.render r phase) ∧ P d phase

theorem Scene.Move.housed {root : Path} {name : FileName} (hn : Disk.Ordinary name)
    {w w' : Scene} (h : Move w w') (hw : w.call.Renders r (Rendering.Housed root name) w.disk) :
    w'.call.Renders r (Rendering.Housed root name) w'.disk := by
  obtain ⟨phase, hcall, hhoused⟩ := hw
  cases h with
  | advance endings now hwait hrun hdraw hcall' hdisk' =>
    rw [hcall] at hcall' hdisk'
    exact ⟨_, hcall', hdisk' ▸ hhoused.step hn r endings now⟩
  | wait i hwait hcall' hcrew htouches =>
    rw [hcall] at hwait
    obtain ⟨scratch, rfl, rfl⟩ := Rendering.running?_eq_some hwait
    cases hhoused with
    | invoke _ hinner hdir =>
      exact ⟨_, hcall'.trans hcall, Rendering.Housed.touches hn (.invoke .run hinner hdir) htouches⟩
  | hear i outcome hwait hrun hcall' hdisk' =>
    rw [hcall] at hwait hcall'
    obtain ⟨scratch, rfl, rfl⟩ := Rendering.running?_eq_some hwait
    cases hhoused with
    | invoke _ hinner hdir =>
      exact ⟨_, hcall', hdisk' ▸ Rendering.Housed.hear (.invoke .run hinner hdir) r outcome⟩

theorem Scene.Move.settled {w w' : Scene} (h : Move w w')
    (hw : w.call.Renders r Rendering.Settled w.disk) :
    w'.call.Renders r Rendering.Settled w'.disk := by
  obtain ⟨phase, hcall, hsettled⟩ := hw
  cases hrunning : w.call.running? with
  | some i =>
    obtain ⟨root, name, hn, hhoused⟩ := hsettled.housed (hcall ▸ hrunning)
    obtain ⟨phase', hcall', hhoused'⟩ := h.housed hn ⟨phase, hcall, hhoused⟩
    exact ⟨phase', hcall', .inr (.inr (.inr ⟨root, name, hn, hhoused'⟩))⟩
  | none =>
    cases h with
    | advance endings now hwait hrun hdraw hcall' hdisk' =>
      rw [hcall] at hcall' hdisk'
      exact ⟨_, hcall', hdisk' ▸ hsettled.step r hdraw now⟩
    | wait i hwait => exact nomatch hrunning.symm.trans hwait
    | hear i outcome hwait => exact nomatch hrunning.symm.trans hwait

end Rendering

end DiagramService
