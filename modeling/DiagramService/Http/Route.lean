import DiagramService.Http.ApiDocument
import DiagramService.Http.Origin
import DiagramService.Http.StaticFile
import DiagramService.Render.Invocation
import DiagramService.Request
import DiagramService.Store.Listing

/-!
# Routes

A request is answered by what its path leads to. Most answers need nothing but the request or a look
at the disk; a request to render or to save a diagram is only taken up if its body is accepted and
holds a text, and a request for the list starts a listing. Every answer is shared across origins and
has a length.
-/

namespace DiagramService.Http

/-- What a path leads to. -/
inductive Endpoint where
  | render
  | save
  | list
  | health
  | apiDocument
  /-- The documentation without a slash at its end. -/
  | documentation
  /-- A page of the documentation. -/
  | page
  /-- A file of the save directory. -/
  | file (path : List Char)
deriving DecidableEq, Repr

namespace Endpoint

/-- What stands after a fixed start. -/
def after? (start : String) (path : List Char) : Option (List Char) :=
  if start.toList.isPrefixOf path then some (path.drop start.toList.length) else none

/-- What a path leads to. -/
def ofPath? (path : List Char) : Option Endpoint :=
  let is (text : String) : Bool := path == text.toList
  if is "/render" then some .render
  else if is "/save" then some .save
  else if is "/api/diagrams" then some .list
  else if is "/health" then some .health
  else if is "/api-docs/openapi.json" then some .apiDocument
  else if is "/swagger-ui" then some .documentation
  else if is "/diagrams" then some (.file ['/'])
  else
    match after? "/diagrams/" path with
    | some rest => some (.file ('/' :: rest))
    | none => if (after? "/swagger-ui/" path).isSome then some .page else none

/-- The methods of an endpoint, if it tells them whatever is asked. -/
def methods? : Endpoint → Option String
  | .render => some "POST"
  | .save => some "POST"
  | .file _ => none
  | _ => some "GET,HEAD"

/-- Whether an endpoint has a method. -/
def allows (e : Endpoint) (method : String) : Bool :=
  match e with
  | .render => method == "POST"
  | .save => method == "POST"
  | _ => method == "GET" || method == "HEAD"

end Endpoint

/-- How many bytes a body may have. -/
def maxBody : Nat := 2097152

/-- The response to a body that is not accepted. -/
def Response.ofFailure (body : Bytes) (failure : Json.Failure) : Response :=
  match failure.cause.category with
  | .data =>
    .text 422 ("Failed to deserialize the JSON body into the target type: " ++
      failure.messageInside body)
  | _ => .text 400 ("Failed to parse the request body as JSON: " ++ failure.messageInside body)

/-- The text to render, or the response that refuses the request. -/
def Request.text (r : Request) : Except Response String :=
  if !r.hasJson then
    .error (.text 415 "Expected request with `Content-Type: application/json`")
  else if maxBody < r.body.length then
    .error (.text 413 "Failed to buffer the request body: length limit exceeded")
  else
    match DiagramRequest.read r.body with
    | .error failure => .error (.ofFailure r.body failure)
    | .ok (request, _) =>
      match request.text with
      | .ok text => .ok text
      | .error error => .error (.ofError error)

/-- What a request asks to do. -/
inductive Action where
  /-- Nothing but this answer. -/
  | reply (response : Response)
  | render (text : String)
  | save (text : String)
  | list
  /-- Shows a file of the save directory. -/
  | file (path : List Char)
deriving Repr

namespace Action

/-- What a request to an endpoint asks to do, if its method is allowed. -/
def ofEndpoint (r : Request) : Endpoint → Action
  | .render =>
    match r.text with
    | .ok text => .render text
    | .error response => .reply response
  | .save =>
    match r.text with
    | .ok text => .save text
    | .error response => .reply response
  | .list => .list
  | .health => .reply (.text 200 "OK")
  | .apiDocument => .reply (.json 200 ApiDocument.document)
  | .documentation => .reply ((Response.bare 303).adding "location" "/swagger-ui/")
  | .page => .reply (.bare 404)
  | .file path => .file path

/-- The response with the methods of an endpoint, if it tells them. -/
def tellMethods (e : Option Endpoint) (response : Response) : Response :=
  match e.bind Endpoint.methods? with
  | some methods => response.adding "allow" methods
  | none => response

/-- What a request asks to do. -/
def ofRequest (r : Request) : Action :=
  let endpoint := Endpoint.ofPath? r.path
  if r.method = "OPTIONS" then .reply (tellMethods endpoint (.preflight r))
  else
    match endpoint with
    | none => .reply (.bare 404)
    | some (.file path) => .file path
    | some endpoint =>
      if endpoint.allows r.method then ofEndpoint r endpoint
      else .reply (tellMethods (some endpoint) (.bare 405))

end Action

namespace Response

/-- The response to a request to render. -/
def ofRender : Except RenderError Bytes → Response
  | .ok image =>
    ⟨200, [.ofText "content-type" "image/png",
      .ofText "content-length" (Text.natText image.length)], image⟩
  | .error error => ofError (.render error)

/-- The response to a request to save. -/
def ofSave : Except RenderError SavedDiagram → Response
  | .ok saved =>
    json 200 (.object [("message", .text "Saved successfully"),
      ("pumlPath", .text saved.source.toString), ("pngPath", .text saved.image.toString)])
  | .error error => ofError (.render error)

/-- An entry of the list of saved diagrams. -/
def entryJson (entry : SavedEntry) : Json :=
  .object [("id", .int entry.record.id.value.toInt),
    ("pumlPath", .text entry.record.source.toString),
    ("pngPath", .text entry.record.image.toString), ("hasImage", .bool entry.hasImage)]

/-- The response to a request for the list of saved diagrams. -/
def ofList : Except IoError (List SavedEntry) → Response
  | .ok entries => json 200 (.list (entries.map entryJson))
  | .error error => ofError (.internal error.message)

/-- The response as it is sent. -/
def finished (r : Response) (request : Request) : Response :=
  (r.withLength.forMethod request.method).shared request

end Response

end DiagramService.Http
