import DiagramService.Proofs.Http.SavedFiles
import DiagramService.Proofs.Service.Inventory
import DiagramService.Proofs.Service.SaveAnswer
import DiagramService.Proofs.Store.Listing

/-! What was saved is what is listed and what is served. A service is asked for the list and for
single files, at any time after a save: a record that was made is in the list with its image, and
its two files are the text and the image of its save. Of a save that has failed there is nothing. -/

namespace DiagramService

/-- While a sequence of requests is answered, the clock shows times after which there are numbers
left for all ids. -/
def Timely (calls : List (Setting × Http.Request)) : Prop :=
  ∃ top, 0 ≤ top ∧ (∀ call ∈ calls, Within top call.1.clock) ∧
    top + maxClaims * calls.length < 2 ^ 63

/-- The bounds for the clock and the last id before a request of the sequence, and after it. -/
theorem Timely.cut {earlier later : List (Setting × Http.Request)} {call : Setting × Http.Request}
    (h : Timely (earlier ++ call :: later)) : ∃ top last : Int, 0 ≤ top ∧
      (∀ call ∈ earlier, Within top call.1.clock) ∧ Within last call.1.clock ∧
      (∀ call ∈ later, Within (last + maxClaims) call.1.clock) ∧
      top + maxClaims * earlier.length = last ∧ last + maxClaims < 2 ^ 63 ∧
      last + maxClaims + maxClaims * later.length < 2 ^ 63 := by
  obtain ⟨top, htop, hclock, hroom⟩ := h
  simp only [List.forall_mem_append, List.forall_mem_cons] at hclock
  obtain ⟨hclock₁, hclock₂, hclock₃⟩ := hclock
  have hlength : (maxClaims : Int) * (earlier ++ call :: later).length =
      maxClaims * earlier.length + maxClaims + maxClaims * later.length := by
    push_cast [List.length_append, List.length_cons]
    ring
  have hnonneg₁ : 0 ≤ (maxClaims : Int) * earlier.length := by positivity
  have hnonneg₃ : 0 ≤ (maxClaims : Int) * later.length := by positivity
  exact ⟨top, _, htop, hclock₁, hclock₂.mono (by omega),
    fun call hmem => (hclock₃ call hmem).mono (by omega), rfl, by omega, by omega⟩

namespace Service

section Archive

variable {config : Config} {D : Place} {kept : List Deposit} {s : Service} {e : Setting}

/-! ## What is kept -/

theorem Keeps.list (h : Keeps config D kept s) (hs : Disk.Spelled config.saveDir) :
    s.list = .ok (Listing.sort ((s.disk.names D).filterMap (Listing.found? s.store s.disk))) := by
  rw [Service.list, Listing.perform, h.dir, h.opens.readDir hs]

/-- The entry of a deposit. Its image is found where the renderer has left it. -/
theorem Keeps.found (h : Keeps config D kept s) {k : Deposit} (hk : k ∈ kept) :
    Listing.found? s.store s.disk k.id.sourceName =
      some ⟨.inDirectory config.saveDir k.id, true⟩ := by
  obtain ⟨hs, -, time, himage⟩ := h.files k hk
  have hlocate := h.opens.locate_found k.id.imageName_ordinary (DiagramId.spelled_imageName hs)
    .follow himage nofun
  have hhas : Listing.hasImage config.saveDir k.id.sourceName s.disk = true := by
    rw [Listing.hasImage, renderedImagePath_record, Disk.has, Disk.find_of_locate hlocate]
  simp [Listing.found?, DiagramId.idOf?_sourceName, h.idle, hhas, Store.record, h.dir]

section Lacks

variable {id : DiagramId} (hkept : ∀ k ∈ kept, k.id ≠ id)
  (hway : ∀ name ∈ Disk.wayOf config.workDir, DiagramId.ofFileName? name ≠ some id)

include hkept hway

/-- Nothing has a name that spells the id, neither a file nor a directory. -/
theorem Keeps.vacant (h : Keeps config D kept s) {name : FileName}
    (hid : DiagramId.ofFileName? name = some id) : s.disk.get? (name :: D) = none := by
  refine Classical.byContradiction fun hname => ?_
  rcases h.only name hname with ⟨k, hk, rfl | rfl⟩ | ⟨-, hmem⟩
  · rw [DiagramId.ofFileName?_sourceName] at hid
    exact hkept k hk (Option.some.inj hid)
  · rw [DiagramId.ofFileName?_imageName] at hid
    exact hkept k hk (Option.some.inj hid)
  · exact hway name hmem hid

end Lacks

/-! ## Saves -/

variable {request : Http.Request}

end Archive

end Service

end DiagramService
