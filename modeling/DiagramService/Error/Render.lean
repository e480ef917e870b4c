import DiagramService.Duration
import DiagramService.Error.System
import DiagramService.Json.Value
import DiagramService.Path

/-!
# Errors of the service

Rendering fails in five ways. What the renderer printed and where its image should have been are
kept for the record and are no part of the message, so they never reach a client.
-/

namespace DiagramService

/-- Why no image was made. -/
inductive RenderError where
  /-- The renderer could not be started. -/
  | spawnFailure (command : String) (cause : IoError)
  /-- The renderer ended with a code other than zero, or by a signal. -/
  | toolFailure (code : Option Int) (stderr : String)
  /-- The renderer ended well and left no image. -/
  | outputMissing (path : Path)
  /-- The renderer was still running at the end of its time. -/
  | timeout (after : Duration)
  /-- A file could not be written, removed or read. -/
  | io (cause : IoError)
deriving DecidableEq, Repr

/-- The exit code in words. -/
def exitCodeText : Option Int → String
  | some code => Text.intText code
  | none => "unknown"

namespace RenderError

/-- What the error says. -/
def message : RenderError → String
  | .spawnFailure command cause =>
    "Failed to start renderer '" ++ command ++ "': " ++ cause.message
  | .toolFailure code _ => "Renderer exited with code " ++ exitCodeText code
  | .outputMissing _ => "Renderer produced no output"
  | .timeout after => "Renderer timed out after " ++ after.text ++ "s"
  | .io cause => "IO error: " ++ cause.message

end RenderError

/-- Why a request was not answered as asked. -/
inductive ApiError where
  /-- The text holds nothing but white space. -/
  | emptyInput
  /-- No image was made. -/
  | render (cause : RenderError)
  /-- Something else failed. -/
  | internal (text : String)
deriving DecidableEq, Repr

namespace ApiError

/-- What the error says. -/
def message : ApiError → String
  | .emptyInput => "No UML text provided"
  | .render cause => "Rendering error: " ++ cause.message
  | .internal text => "Internal error: " ++ text

/-- The status of the response. -/
def status : ApiError → Nat
  | .emptyInput => 400
  | .render _ => 500
  | .internal _ => 500

/-- What the response shows of the error. -/
def shown : ApiError → String
  | .render cause => cause.message
  | error => error.message

/-- The body of the response. -/
def body (error : ApiError) : Json :=
  .object [("status", .int error.status), ("error", .text error.shown)]

end ApiError

end DiagramService
