import DiagramService.Error.Render
import DiagramService.Text.Utf8

/-!
# Requests and responses

A request names a method and a target and has header fields and a body; a response has a status,
header fields and a body. Of a field that is given more than once the first one counts. Every
response tells the length of its body, and the response to a `HEAD` request is that to a `GET`
request without the body.
-/

namespace DiagramService.Http

/-- A header field. The names of fields are compared without regard to case. -/
structure Field where
  name : String
  value : Bytes
deriving DecidableEq, Repr

/-- The same letter in lower case. -/
def lowerChar (c : Char) : Char :=
  if 'A' ≤ c ∧ c ≤ 'Z' then Char.ofNat (c.toNat + 32) else c

/-- The text with its letters in lower case. -/
def lower (s : String) : String :=
  String.ofList (s.toList.map lowerChar)

/-- What a client asks for. -/
structure Request where
  method : String
  /-- The path, and the query if there is one. -/
  target : String
  fields : List Field
  body : Bytes
deriving Repr

namespace Request

/-- The first value of a header field. -/
def field? (r : Request) (name : String) : Option Bytes :=
  (r.fields.find? fun f => lower f.name == name).map Field.value

/-- The path of the target. -/
def path (r : Request) : List Char :=
  r.target.toList.takeWhile fun c => c != '?' && c != '#'

/-- The query of the target with its question mark, or nothing. -/
def query (r : Request) : List Char :=
  (r.target.toList.takeWhile (· != '#')).drop r.path.length

end Request

/-- What a client gets. -/
structure Response where
  status : Nat
  fields : List Field
  body : Bytes
deriving DecidableEq, Repr

/-- A header field with a text as its value. -/
def Field.ofText (name value : String) : Field :=
  ⟨name, Utf8.encode value⟩

namespace Response

/-- A response without a body. -/
def bare (status : Nat) : Response :=
  ⟨status, [], []⟩

/-- The response with one more header field. -/
def adding (r : Response) (name value : String) : Response :=
  { r with fields := r.fields ++ [.ofText name value] }

/-- The first value of a header field. -/
def field? (r : Response) (name : String) : Option Bytes :=
  (r.fields.find? fun f => f.name == name).map Field.value

/-- A response whose body is a text. -/
def text (status : Nat) (body : String) : Response :=
  ⟨status, [.ofText "content-type" "text/plain; charset=utf-8"], Utf8.encode body⟩

/-- A response whose body is a JSON value. -/
def json (status : Nat) (body : Json) : Response :=
  ⟨status, [.ofText "content-type" "application/json"], body.encode⟩

/-- The response that reports an error. -/
def ofError (error : ApiError) : Response :=
  json error.status error.body

/-- The response with the length of its body, unless it tells a length already. -/
def withLength (r : Response) : Response :=
  if (r.field? "content-length").isSome then r
  else r.adding "content-length" (Text.natText r.body.length)

/-- The response without its body, if that was not asked for. -/
def forMethod (r : Response) (method : String) : Response :=
  if method = "HEAD" then { r with body := [] } else r

end Response

end DiagramService.Http
