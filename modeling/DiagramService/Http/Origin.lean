import DiagramService.Http.Message

/-!
# Sharing across origins

Every response may be read by pages of any origin: it names the origin that the request came from
and allows credentials. A request with the method `OPTIONS` is answered without being looked at any
further, and allows whatever method and headers are asked for.
-/

namespace DiagramService.Http

/-- A header field whose value is that of a field of the request. -/
def copied (request : Request) (name source : String) : List Field :=
  match request.field? source with
  | some value => [⟨name, value⟩]
  | none => []

/-- The header fields that every response gets. -/
def sharing (request : Request) : List Field :=
  copied request "access-control-allow-origin" "origin" ++
    [.ofText "access-control-allow-credentials" "true",
      .ofText "vary" "origin, access-control-request-method, access-control-request-headers"]

namespace Response

/-- The response with the header fields that let pages of any origin read it. -/
def shared (r : Response) (request : Request) : Response :=
  { r with fields := r.fields ++ sharing request }

/-- The answer to the question which requests are allowed. -/
def preflight (request : Request) : Response :=
  ⟨200, copied request "access-control-allow-methods" "access-control-request-method" ++
    copied request "access-control-allow-headers" "access-control-request-headers", []⟩

end Response

end DiagramService.Http
