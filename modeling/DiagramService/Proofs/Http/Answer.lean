import DiagramService.Http.Route
import DiagramService.Proofs.Text.Blank

/-! What requests ask for, and the status of their answers. A text to render or to save is the one
of the body without the white space at its ends, and no error is answered with 200. -/

namespace DiagramService.Http

theorem Response.finished_status (response : Response) (request : Request) :
    (response.finished request).status = response.status := by
  unfold finished shared forMethod withLength
  split <;> split <;> rfl

/-- A body is sent unless it was not asked for. -/
theorem Response.finished_body_eq (response : Response) (request : Request) :
    (response.finished request).body = if request.method = "HEAD" then [] else response.body := by
  have hlength : response.withLength.body = response.body := by
    unfold withLength
    split <;> rfl
  unfold finished shared forMethod
  split
  · rfl
  · exact hlength

theorem Response.finished_body (response : Response) {request : Request}
    (h : request.method = "POST") : (response.finished request).body = response.body := by
  rw [finished_body_eq, h, if_neg (by decide)]

/-- No error is answered with 200. -/
theorem Response.ofError_status (error : ApiError) : (ofError error).status ≠ 200 := by
  cases error <;> simp [ofError, json, ApiError.status]

theorem Response.ofFailure_status (body : Bytes) (failure : Json.Failure) :
    (ofFailure body failure).status ≠ 200 := by
  unfold ofFailure
  split <;> simp [Response.text]

/-- How a request without a text that counts is refused. -/
theorem Request.text_error_cases {request : Request} {response : Response}
    (h : request.text = .error response) :
    (∃ status message, status ≠ 200 ∧ response = .text status message) ∨
    (∃ failure, response = .ofFailure request.body failure) ∨
    ∃ error, response = .ofError error := by
  unfold Request.text at h
  split at h
  · cases h
    exact .inl ⟨415, _, by decide, rfl⟩
  · split at h
    · cases h
      exact .inl ⟨413, _, by decide, rfl⟩
    · split at h
      · cases h
        exact .inr (.inl ⟨_, rfl⟩)
      · split at h
        · cases h
        · cases h
          exact .inr (.inr ⟨_, rfl⟩)

/-- A request without a text that counts is not answered with 200. -/
theorem Request.text_error {request : Request} {response : Response}
    (h : request.text = .error response) : response.status ≠ 200 := by
  obtain ⟨status, message, hstatus, rfl⟩ | ⟨failure, rfl⟩ | ⟨error, rfl⟩ := text_error_cases h
  · exact hstatus
  · exact Response.ofFailure_status _ _
  · exact Response.ofError_status _

/-- The text that counts is the trimmed text of the body. -/
theorem Request.text_ok {request : Request} {text : String} (h : request.text = .ok text) :
    ∃ body rest, DiagramRequest.read request.body = .ok (body, rest) ∧
      text = Text.trim body.uml := by
  unfold Request.text at h
  split at h
  · cases h
  · split at h
    · cases h
    · split at h
      · cases h
      · next body rest hread =>
        refine ⟨body, rest, hread, ?_⟩
        split at h
        · next htext =>
          cases h
          unfold DiagramRequest.text at htext
          split at htext <;> cases htext
          rfl
        · cases h

/-- A body that is accepted and holds a text says what counts. -/
theorem Request.text_of_read {request : Request} (hjson : request.hasJson)
    (hlength : request.body.length ≤ maxBody) {body : DiagramRequest} {rest : Bytes}
    (hread : DiagramRequest.read request.body = .ok (body, rest)) {text : String}
    (htext : body.text = .ok text) : request.text = .ok text := by
  have hfits : ¬ maxBody < request.body.length := Nat.not_lt.mpr hlength
  simp [Request.text, hjson, hfits, hread, htext]

theorem Request.text_of_toOption {request : Request} {text : String}
    (h : request.text.toOption = some text) : request.text = .ok text := by
  cases htext : request.text with
  | error response =>
    rw [htext] at h
    cases h
  | ok text' =>
    rw [htext] at h
    exact congrArg _ (Option.some.inj h)

/-- The text that counts counts again as it is. -/
theorem Request.text_again {request : Request} {text : String} (h : request.text = .ok text) :
    DiagramRequest.text ⟨text⟩ = .ok text := by
  unfold Request.text at h
  split at h
  · cases h
  · split at h
    · cases h
    · split at h
      · cases h
      · next body rest hread =>
        split at h
        · next htext =>
          cases h
          unfold DiagramRequest.text at htext ⊢
          by_cases hempty : (Text.trimList body.uml.toList).isEmpty = true
          · rw [if_pos hempty] at htext
            cases htext
          · rw [if_neg hempty] at htext
            obtain rfl := Except.ok.inj htext
            rw [Text.trim_trim, Text.trim, String.toList_ofList, Text.trimList_trimList,
              if_neg hempty]
        · cases h

/-- A text is rendered for a request that holds it. -/
theorem Action.of_render {request : Request} {text : String}
    (h : ofRequest request = .render text) : request.text = .ok text ∧ request.method = "POST" := by
  have hendpoint : ∀ endpoint, endpoint.allows request.method →
      ofEndpoint request endpoint = .render text →
      request.text = .ok text ∧ request.method = "POST" := by
    intro endpoint hallows h
    cases endpoint with
    | render =>
      simp only [ofEndpoint] at h
      split at h
      · next htext =>
        cases h
        exact ⟨htext, beq_iff_eq.mp hallows⟩
      · cases h
    | save =>
      simp only [ofEndpoint] at h
      split at h <;> cases h
    | _ => cases h
  unfold ofRequest at h
  simp only at h
  split at h
  · cases h
  · split at h
    · cases h
    · cases h
    · next endpoint _ _ =>
      split at h
      · next hallows => exact hendpoint endpoint hallows h
      · cases h

/-- A request to render asks for what its text says. -/
theorem Action.ofRequest_render {request : Request} (hmethod : request.method = "POST")
    (hpath : request.path = "/render".toList) :
    ofRequest request = match request.text with
      | .ok text => .render text
      | .error response => .reply response := by
  have hendpoint : Endpoint.ofPath? request.path = some .render := by
    rw [hpath]
    decide
  simp only [ofRequest, hmethod, hendpoint, Endpoint.allows, ofEndpoint]
  rfl

/-- A request to save asks for what its text says. -/
theorem Action.ofRequest_save {request : Request} (hmethod : request.method = "POST")
    (hpath : request.path = "/save".toList) :
    ofRequest request = match request.text with
      | .ok text => .save text
      | .error response => .reply response := by
  have hendpoint : Endpoint.ofPath? request.path = some .save := by
    rw [hpath]
    decide
  simp only [ofRequest, hmethod, hendpoint, Endpoint.allows, ofEndpoint]
  rfl

/-- A save is answered with 200 when it is successful, and only then. -/
theorem Response.ofSave_status {result : Except RenderError SavedDiagram} :
    (ofSave result).status = 200 ↔ result.toOption.isSome := by
  cases result with
  | ok record => exact ⟨fun _ => rfl, fun _ => rfl⟩
  | error error => exact ⟨fun h => absurd h (ofError_status _), nofun⟩

/-- So is a rendering. -/
theorem Response.ofRender_status {result : Except RenderError Bytes} :
    (ofRender result).status = 200 ↔ result.toOption.isSome := by
  cases result with
  | ok image => exact ⟨fun _ => rfl, fun _ => rfl⟩
  | error error => exact ⟨fun h => absurd h (ofError_status _), nofun⟩

/-- Only an image is answered with 200. -/
theorem Response.ofRender_ok {result : Except RenderError Bytes}
    (h : (ofRender result).status = 200) :
    ∃ image, result = .ok image ∧ (ofRender result).body = image := by
  cases result with
  | ok image => exact ⟨image, rfl, rfl⟩
  | error error => exact absurd h (ofError_status _)

end DiagramService.Http
