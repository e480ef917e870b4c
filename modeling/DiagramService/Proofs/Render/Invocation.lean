import DiagramService.Proofs.Disk.Gone
import DiagramService.Render.Invocation

/-! One run of the renderer. It is blocked if its files cannot be made ready. Otherwise its result
is the image that the renderer has left, or tells how the renderer has ended. -/

namespace DiagramService

namespace Invocation

/-- After its renderer has run an invocation reads the image, or it has failed. -/
theorem afterRun_cases (i : Invocation) (outcome : RunOutcome) :
    i.afterRun outcome = .read ∨ ∃ error, i.afterRun outcome = .done (.error error) := by
  cases outcome with
  | notStarted cause => exact .inr ⟨_, rfl⟩
  | outlived => exact .inr ⟨_, rfl⟩
  | lost cause => exact .inr ⟨_, rfl⟩
  | ended code errors =>
    simp only [afterRun]
    split
    · exact .inl rfl
    · exact .inr ⟨_, rfl⟩

theorem contentAt_of_read {i : Invocation} {d : Disk} {content : Bytes}
    (h : i.read d = .ok content) : d.contentAt i.files.image = .ok content := by
  unfold read at h
  split at h
  · next heq =>
    cases h
    exact heq
  · cases h

/-- What an invocation comes to that has written its source. -/
theorem perform_of_prepare {i : Invocation} {d e : Disk} {now : Int}
    (h : i.prepare d now = (.run, e)) (renderer : Renderer) :
    (i.perform renderer d now).2 = (renderer i.files.source e).2 ∧
      (i.afterRun (renderer i.files.source e).1 = .read ∧
        (i.perform renderer d now).1 = i.read (renderer i.files.source e).2 ∨
      ∃ error, i.afterRun (renderer i.files.source e).1 = .done (.error error) ∧
        (i.perform renderer d now).1 = .error error) := by
  have hrun : i.run renderer .run e =
      (i.afterRun (renderer i.files.source e).1, (renderer i.files.source e).2) := rfl
  simp only [perform, h, hrun]
  rcases i.afterRun_cases (renderer i.files.source e).1 with hread | ⟨error, herror⟩
  · rw [hread]
    exact ⟨rfl, .inl ⟨rfl, rfl⟩⟩
  · rw [herror]
    exact ⟨rfl, .inr ⟨error, rfl, rfl⟩⟩

/-! ## What comes before the run -/

/-- The source cannot be written, or there is an image that cannot be removed. -/
inductive Blocked (i : Invocation) (d : Disk) (now : Int) (cause : IoError) : Prop
  | source (h : (d.writeFile i.files.source (Utf8.encode i.text) now).1 = .error cause)
  | image (h : (d.writeFile i.files.source (Utf8.encode i.text) now).1 = .ok ())
    (hcause : ((d.writeFile i.files.source (Utf8.encode i.text) now).2.removeFile
      i.files.image).1 = .error cause) (hkind : cause.kind ≠ .notFound)

theorem prepare_of_blocked {i : Invocation} {d : Disk} {now : Int} {cause : IoError}
    (h : i.Blocked d now cause) : ∃ e, i.prepare d now = (.done (.error (.io cause)), e) := by
  unfold prepare write
  cases h with
  | source h =>
    cases hwrite : d.writeFile i.files.source (Utf8.encode i.text) now with
    | mk answer e =>
      rw [hwrite] at h
      obtain rfl : answer = .error cause := h
      exact ⟨e, rfl⟩
  | image h hcause hkind =>
    cases hwrite : d.writeFile i.files.source (Utf8.encode i.text) now with
    | mk answer e =>
      rw [hwrite] at h hcause
      obtain rfl : answer = .ok () := h
      simp only [step, clear]
      cases hremove : e.removeFile i.files.image with
      | mk answer e' =>
        rw [hremove] at hcause
        obtain rfl : answer = .error cause := hcause
        simp only [hkind, if_false]
        exact ⟨e', rfl⟩

/-- When it is not blocked an invocation goes on to run the renderer. -/
theorem prepare_cases (i : Invocation) (d : Disk) (now : Int) :
    (∃ e, i.prepare d now = (.run, e)) ∨ ∃ cause, i.Blocked d now cause := by
  cases hwrite : d.writeFile i.files.source (Utf8.encode i.text) now with
  | mk answer e =>
    cases answer with
    | error cause => exact .inr ⟨cause, .source (by rw [hwrite])⟩
    | ok =>
      cases hremove : e.removeFile i.files.image with
      | mk answer e' =>
        unfold prepare write
        simp only [hwrite, step, clear, hremove]
        cases answer with
        | ok => exact .inl ⟨e', rfl⟩
        | error cause =>
          by_cases hkind : cause.kind = .notFound
          · exact .inl ⟨e', by simp only [hkind, if_true]⟩
          · exact .inr ⟨cause, .image (by rw [hwrite]) (by rw [hwrite, hremove]) hkind⟩

/-! ## Steps -/

section Step

variable {i : Invocation} {d : Disk} {now : Int}

/-- An invocation only writes and removes files. -/
theorem step_addsFiles (i : Invocation) (phase : Phase) (d : Disk) (now : Int) :
    Disk.AddsFiles d (i.step phase d now).2 := by
  have hsame : Disk.AddsFiles d d := (Disk.Shrinks.refl d).addsFiles
  cases phase with
  | write =>
    have hwrite := Disk.writeFile_addsFiles d i.files.source (Utf8.encode i.text) now
    simp only [step, write]
    split
    · next h => rwa [h] at hwrite
    · next h => rwa [h] at hwrite
  | clear =>
    have hremove := (Disk.removeFile_shrinks d i.files.image).addsFiles
    simp only [step, clear]
    split
    · next h => rwa [h] at hremove
    · next h =>
      rw [h] at hremove
      split <;> exact hremove
  | _ => exact hsame

/-- An image is returned by the step that reads it. -/
theorem step_returns {phase : Phase} {content : Bytes}
    (h : (i.step phase d now).1 = .done (.ok content)) : (i.step phase d now).2 = d ∧
      (phase = .done (.ok content) ∨ d.contentAt i.files.image = .ok content) := by
  cases phase with
  | write =>
    simp only [step, write] at h
    split at h <;> cases h
  | clear =>
    simp only [step, clear] at h
    split at h
    · cases h
    · split at h <;> cases h
  | run => cases h
  | read =>
    simp only [step, Phase.done.injEq] at h
    exact ⟨rfl, .inr (contentAt_of_read h)⟩
  | done result => exact ⟨rfl, .inl h⟩

/-- The renderer is waited for when no directory is in the place of its image. -/
theorem step_run {phase : Phase} (hphase : phase ≠ .run) (h : (i.step phase d now).1 = .run) :
    (i.step phase d now).2.NoDirAt i.files.image := by
  cases phase with
  | clear =>
    have hremove : ∀ r e, d.removeFile i.files.image = (r, e) →
        (∀ cause, r = .error cause → cause.kind = .notFound) → e.NoDirAt i.files.image := by
      intro r e heq hr
      have hshrinks := Disk.removeFile_shrinks d i.files.image
      rw [heq] at hshrinks
      exact (Disk.noDirAt_of_removeFile heq hr).addsFiles hshrinks.addsFiles
    simp only [step, clear] at h ⊢
    split at h
    · next heq => exact hremove _ _ heq nofun
    · next cause _ heq =>
      split at h
      · next hkind =>
        simp only [hkind, if_true]
        refine hremove _ _ heq fun cause' hcause => ?_
        cases hcause
        exact hkind
      · cases h
  | write =>
    simp only [step, write] at h
    split at h <;> cases h
  | run => exact absurd rfl hphase
  | read => cases h
  | done result => cases h

/-- Nothing is read before the renderer has run. -/
theorem step_read {phase : Phase} : (i.step phase d now).1 ≠ .read := by
  intro h
  cases phase with
  | write =>
    simp only [step, write] at h
    split at h <;> cases h
  | clear =>
    simp only [step, clear] at h
    split at h
    · cases h
    · split at h <;> cases h
  | _ => cases h

end Step

end Invocation

end DiagramService
