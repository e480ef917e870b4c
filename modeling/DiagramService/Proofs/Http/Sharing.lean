import Mathlib
import DiagramService.Proofs.Http.Answer

/-! What the header fields of a response tell pages of other origins. No answer says anything about
origins or credentials of its own; so what is sent says it once, in the same way for every answer.
A question which requests are allowed is answered by allowing what it names. -/

namespace DiagramService.Http

/-! ## The values of a header field -/

/-- All values of a header field. -/
def valuesOf (name : String) (fields : List Field) : List Bytes :=
  (fields.filter fun f => lower f.name == name).map Field.value

@[simp]
theorem valuesOf_nil (name : String) : valuesOf name [] = [] := rfl

@[simp]
theorem valuesOf_append (name : String) (fields more : List Field) :
    valuesOf name (fields ++ more) = valuesOf name fields ++ valuesOf name more := by
  simp [valuesOf]

theorem valuesOf_ofText (name given value : String) (fields : List Field) :
    valuesOf name (.ofText given value :: fields) =
      if lower given = name then Utf8.encode value :: valuesOf name fields
      else valuesOf name fields := by
  unfold valuesOf
  by_cases h : lower given = name <;> simp [Field.ofText, h]

theorem valuesOf_copied (name : String) (request : Request) (given source : String) :
    valuesOf name (copied request given source) =
      if lower given = name then (request.field? source).toList else [] := by
  unfold copied valuesOf
  cases request.field? source with
  | none => simp
  | some value => by_cases h : lower given = name <;> simp [h]

/-! ## Answers -/

/-- The name of a field that says nothing about origins or credentials. -/
def Neutral (name : String) : Prop :=
  lower name ≠ "access-control-allow-origin" ∧ lower name ≠ "access-control-allow-credentials"

instance (name : String) : Decidable (Neutral name) :=
  inferInstanceAs (Decidable (_ ∧ _))

/-- Fields that say nothing about origins or credentials. -/
structure Unshared (fields : List Field) : Prop where
  origin : valuesOf "access-control-allow-origin" fields = []
  credentials : valuesOf "access-control-allow-credentials" fields = []

theorem Unshared.nil : Unshared [] :=
  ⟨rfl, rfl⟩

theorem Unshared.append {fields more : List Field} (h : Unshared fields) (h' : Unshared more) :
    Unshared (fields ++ more) :=
  ⟨by rw [valuesOf_append, h.origin, h'.origin]; rfl,
    by rw [valuesOf_append, h.credentials, h'.credentials]; rfl⟩

theorem Unshared.ofText {name : String} (hname : Neutral name) (value : String)
    {fields : List Field} (h : Unshared fields) : Unshared (.ofText name value :: fields) :=
  ⟨by rw [valuesOf_ofText, if_neg hname.1, h.origin],
    by rw [valuesOf_ofText, if_neg hname.2, h.credentials]⟩

theorem Unshared.copied {name : String} (hname : Neutral name) (request : Request)
    (source : String) : Unshared (copied request name source) :=
  ⟨by rw [valuesOf_copied, if_neg hname.1], by rw [valuesOf_copied, if_neg hname.2]⟩

theorem Unshared.adding {r : Response} (h : Unshared r.fields) {name : String}
    (hname : Neutral name) (value : String) : Unshared (r.adding name value).fields :=
  h.append (.ofText hname value .nil)

namespace Response

theorem unshared_text (status : Nat) (body : String) : Unshared (text status body).fields :=
  .ofText (by decide) _ .nil

theorem unshared_json (status : Nat) (body : Json) : Unshared (json status body).fields :=
  .ofText (by decide) _ .nil

theorem unshared_ofFailure (body : Bytes) (failure : Json.Failure) :
    Unshared (ofFailure body failure).fields := by
  unfold ofFailure
  split <;> exact unshared_text _ _

theorem unshared_ofRender (result : Except RenderError Bytes) :
    Unshared (ofRender result).fields := by
  cases result with
  | ok image => exact .ofText (by decide) _ (.ofText (by decide) _ .nil)
  | error error => exact unshared_json _ _

theorem unshared_ofSave (result : Except RenderError SavedDiagram) :
    Unshared (ofSave result).fields := by
  cases result <;> exact unshared_json _ _

theorem unshared_ofList (result : Except IoError (List SavedEntry)) :
    Unshared (ofList result).fields := by
  cases result <;> exact unshared_json _ _

theorem unshared_preflight (request : Request) : Unshared (preflight request).fields :=
  (Unshared.copied (by decide) request _).append (.copied (by decide) request _)

end Response

/-- A body that is refused is refused without a word about origins. -/
theorem Request.unshared_text_error {request : Request} {response : Response}
    (h : request.text = .error response) : Unshared response.fields := by
  obtain ⟨status, message, -, rfl⟩ | ⟨failure, rfl⟩ | ⟨error, rfl⟩ := text_error_cases h
  · exact Response.unshared_text _ _
  · exact Response.unshared_ofFailure _ _
  · exact Response.unshared_json _ _

namespace StaticFile

theorem unshared_ofContent (request : Request) (p : Path) (content : Bytes) :
    Unshared (ofContent request p content).fields := by
  have hbase : Unshared (((Response.bare 200).adding "content-type" (mediaType p)).adding
      "accept-ranges" "bytes").fields :=
    (Unshared.nil.append (.ofText (by decide) _ .nil)).append (.ofText (by decide) _ .nil)
  have hadding : ∀ {fields : List Field} {name : String}, Unshared fields → Neutral name →
      ∀ value, Unshared (fields ++ [.ofText name value]) := fun h hname value =>
    h.append (.ofText hname value .nil)
  unfold ofContent
  simp only
  split
  · exact hadding hbase (by decide) _
  · split
    · exact hadding hbase (by decide) _
    · exact hadding (hadding hbase (by decide) _) (by decide) _
    · exact hadding hbase (by decide) _

theorem unshared_ofFile (d : Disk) (request : Request) (p : Path) :
    Unshared (ofFile d request p).fields := by
  unfold ofFile
  split
  · split
    · next response hconditional =>
      unfold conditional? at hconditional
      split at hconditional
      · cases hconditional
        exact .nil
      · split at hconditional
        · cases hconditional
          exact .nil
        · cases hconditional
    · exact unshared_ofContent request p _
  · exact .nil

theorem unshared_serve (d : Disk) (dir : Path) (request : Request) (requested : List Char) :
    Unshared (serve d dir request requested).fields := by
  unfold serve
  split
  · exact Unshared.nil.adding (r := .bare 405) (by decide) _
  · split
    · exact .nil
    · split
      · exact unshared_ofFile d request _
      · split
        · exact unshared_ofFile d request _
        · exact Unshared.nil.adding (r := .bare 307) (by decide) _

end StaticFile

namespace Action

theorem unshared_tellMethods (endpoint : Option Endpoint) {response : Response}
    (h : Unshared response.fields) : Unshared (tellMethods endpoint response).fields := by
  unfold tellMethods
  split
  · exact h.adding (by decide) _
  · exact h

theorem unshared_ofEndpoint {request : Request} {endpoint : Endpoint} {response : Response}
    (h : ofEndpoint request endpoint = .reply response) : Unshared response.fields := by
  cases endpoint with
  | render =>
    simp only [ofEndpoint] at h
    split at h
    · cases h
    · next htext =>
      cases h
      exact Request.unshared_text_error htext
  | save =>
    simp only [ofEndpoint] at h
    split at h
    · cases h
    · next htext =>
      cases h
      exact Request.unshared_text_error htext
  | health =>
    cases h
    exact Response.unshared_text _ _
  | apiDocument =>
    cases h
    exact Response.unshared_json _ _
  | documentation =>
    cases h
    exact Unshared.nil.adding (r := .bare 303) (by decide) _
  | page =>
    cases h
    exact .nil
  | list => cases h
  | file path => cases h

/-- An answer that needs nothing but the request says nothing about origins. -/
theorem unshared_reply {request : Request} {response : Response}
    (h : ofRequest request = .reply response) : Unshared response.fields := by
  unfold ofRequest at h
  simp only at h
  split at h
  · cases h
    exact unshared_tellMethods _ (Response.unshared_preflight request)
  · split at h
    · cases h
      exact .nil
    · cases h
    · split at h
      · exact unshared_ofEndpoint h
      · cases h
        exact unshared_tellMethods _ .nil

end Action

/-! ## What is sent -/

/-- A page of the origin of the request may read the response: its origin is named once, or none is
if the request has none, and credentials are allowed. -/
structure Shared (request : Request) (response : Response) : Prop where
  origin : valuesOf "access-control-allow-origin" response.fields =
    (request.field? "origin").toList
  credentials : valuesOf "access-control-allow-credentials" response.fields =
    [Utf8.encode "true"]

/-- The response allows the request that is announced, and nothing else is in it. -/
structure Allows (request : Request) (response : Response) : Prop where
  status : response.status = 200
  body : response.body = []
  methods : valuesOf "access-control-allow-methods" response.fields =
    (request.field? "access-control-request-method").toList
  headers : valuesOf "access-control-allow-headers" response.fields =
    (request.field? "access-control-request-headers").toList

/-- Besides its length a response that is sent has the fields of the answer and those about origins.
-/
theorem valuesOf_finished {name : String} (hname : lower "content-length" ≠ name)
    (response : Response) (request : Request) :
    valuesOf name (response.finished request).fields =
      valuesOf name response.fields ++ valuesOf name (sharing request) := by
  have hlength : valuesOf name response.withLength.fields = valuesOf name response.fields := by
    unfold Response.withLength
    split
    · rfl
    · simp [Response.adding, valuesOf_ofText, hname]
  have hmethod : (response.withLength.forMethod request.method).fields =
      response.withLength.fields := by
    unfold Response.forMethod
    split <;> rfl
  rw [Response.finished, Response.shared, valuesOf_append, hmethod, hlength]

theorem Unshared.finished {response : Response} (h : Unshared response.fields)
    (request : Request) : Shared request (response.finished request) := by
  constructor
  · rw [valuesOf_finished (by decide), h.origin]
    simp +decide [sharing, valuesOf_ofText, valuesOf_copied]
  · rw [valuesOf_finished (by decide), h.credentials]
    simp +decide [sharing, valuesOf_ofText, valuesOf_copied]

/-- A request with the method `OPTIONS` is answered from its fields alone. -/
theorem Action.ofRequest_options {request : Request} (h : request.method = "OPTIONS") :
    ∃ response, ofRequest request = .reply response ∧
      Allows request (response.finished request) := by
  have htold : ∀ endpoint : Option Endpoint,
      (tellMethods endpoint (.preflight request)).status = 200 ∧
      (tellMethods endpoint (.preflight request)).body = [] ∧
      ∀ name, lower "allow" ≠ name →
        valuesOf name (tellMethods endpoint (.preflight request)).fields =
          valuesOf name (Response.preflight request).fields := by
    intro endpoint
    unfold tellMethods
    split
    · refine ⟨rfl, rfl, fun name hname => ?_⟩
      simp [Response.adding, valuesOf_ofText, hname]
    · exact ⟨rfl, rfl, fun _ _ => rfl⟩
  obtain ⟨hstatus, hbody, hvalues⟩ := htold (Endpoint.ofPath? request.path)
  refine ⟨tellMethods (Endpoint.ofPath? request.path) (.preflight request), ?_, ?_, ?_, ?_, ?_⟩
  · simp only [ofRequest, h, if_true]
  · rw [Response.finished_status, hstatus]
  · rw [Response.finished_body_eq, hbody, ite_self]
  · rw [valuesOf_finished (by decide), hvalues _ (by decide)]
    simp +decide [Response.preflight, sharing, valuesOf_ofText, valuesOf_copied]
  · rw [valuesOf_finished (by decide), hvalues _ (by decide)]
    simp +decide [Response.preflight, sharing, valuesOf_ofText, valuesOf_copied]

end DiagramService.Http
