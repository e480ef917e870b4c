import Mathlib
import DiagramService.Http.Message
import DiagramService.Proofs.Json.Reading

/-! What a response tells of an error. Its body is JSON that can be read in one way only: it has the
status of the response and the text of the error, whatever characters the text has. -/

namespace DiagramService

namespace ApiError

/-- How the text in a response comes from the text of the error: it is that text, but without the
words in front of it where no image was made. -/
def Tells (error : ApiError) (told : String) : Prop :=
  match error with
  | .render _ => error.message = "Rendering error: " ++ told
  | .emptyInput | .internal _ => told = error.message

theorem tells_shown (error : ApiError) : error.Tells error.shown := by
  cases error <;> rfl

theorem status_eq (error : ApiError) :
    error.status = if error = .emptyInput then 400 else 500 := by
  cases error <;> rfl

end ApiError

namespace Http

/-- The body of a response to an error says its status and the text of the error, and nothing else.
It is JSON, and says so. -/
theorem error_bodies_are_readable (error : ApiError) :
    (Response.ofError error).status = (if error = .emptyInput then 400 else 500) ∧
    (Response.ofError error).field? "content-type" = some (Utf8.encode "application/json") ∧
    ∃ told, error.Tells told ∧
      Json.Says (Response.ofError error).body
        (.object [("status", .number (Text.ofNat (Response.ofError error).status)),
          ("error", .text told)]) :=
  ⟨error.status_eq, rfl, error.shown, error.tells_shown, Json.says_encode error.body⟩

end Http

end DiagramService
