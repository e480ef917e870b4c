import Mathlib
import DiagramService.Proofs.Http.Answer
import DiagramService.Proofs.Service.Schedule
import DiagramService.Proofs.Store.Failure

/-! The answer to a request to save a diagram tells what has become of the directory: with 200 it
has the two files of a new record and nothing else that is new, and with anything else it is as it
was. -/

namespace DiagramService

section Answer

variable {s : Service} {e : Setting} {D : Place}

/-- What becomes of a request to save. -/
theorem handle_post_save {request : Http.Request} (hmethod : request.method = "POST")
    (hpath : request.path = "/save".toList) : s.handle e request = match request.text with
      | .ok text => ((Http.Response.ofSave (s.save e text).1).finished request, (s.save e text).2)
      | .error response => (response.finished request, s) := by
  unfold Service.handle
  rw [Http.Action.ofRequest_save hmethod hpath]
  cases request.text <;> rfl

/-- What becomes of a request to render. -/
theorem handle_post_render {request : Http.Request} (hmethod : request.method = "POST")
    (hpath : request.path = "/render".toList) : s.handle e request = match request.text with
      | .ok text =>
        ((Http.Response.ofRender (s.render e text).1).finished request, (s.render e text).2)
      | .error response => (response.finished request, s) := by
  unfold Service.handle
  rw [Http.Action.ofRequest_render hmethod hpath]
  cases request.text <;> rfl

theorem handle_save {request : Http.Request} (hmethod : request.method = "POST")
    (hpath : request.path = "/save".toList) {text : String} (htext : request.text = .ok text) :
    (s.handle e request).1.status = (Http.Response.ofSave (s.save e text).1).status ∧
      (s.handle e request).2.disk = (s.save e text).2.disk := by
  rw [handle_post_save hmethod hpath, htext]
  exact ⟨Http.Response.finished_status _ _, rfl⟩

end Answer

/-! ## A save that fails and one that does not -/

/-- A renderer that leaves an image and ends with a code. -/
def scribbler (code : Int) : Renderer := fun source d =>
  (.ended (some code) [], d.leave (renderedImagePath source) (.file [1] 5))

theorem scribbler_tidy (code : Int) : (scribbler code).Tidy :=
  fun _ d => Disk.alters_leave d _ [1] 5

/-- The service on an empty directory. -/
def onShelf : Service :=
  ⟨⟨.standard, ⟨"saved".toList⟩, ⟨"/".toList⟩⟩, .open_ ⟨"saved".toList⟩, emptyShelf⟩

/-- What a renderer is run in at one time. -/
def scribbling (code : Int) : Setting :=
  ⟨scribbler code, [], fun _ => 5⟩

/-- A request to save a text. -/
def saveRequest : Http.Request :=
  ⟨"POST", "/save", [.ofText "content-type" "application/json"], Utf8.encode "[\"a\"]"⟩

end DiagramService
