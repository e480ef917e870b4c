import DiagramService.Proofs.Service.SaveAnswer

/-! Requests without effect. Only a request to render or to save whose body is accepted and holds a
text reaches the renderer, the scratch directories, the ids or the disk. Any other request, whatever
is wrong with it, is answered and leaves the service as it was, also while other requests are at
work. -/

namespace DiagramService

/-- A request that is taken up: its body is accepted as a request for a diagram, and there is more
than white space in it. -/
structure Http.Request.Accepted (r : Request) : Prop where
  method : r.method = "POST"
  path : r.path = "/render".toList ∨ r.path = "/save".toList
  json : r.hasJson
  length : r.body.length ≤ maxBody
  body : ∃ body rest, DiagramRequest.read r.body = .ok (body, rest) ∧
    ∃ c ∈ body.uml.toList, ¬ Text.isBlank c

namespace Http

/-- A body is accepted when its text counts. -/
theorem Request.Accepted.of_text {r : Request} {text : String} (htext : r.text = .ok text)
    (hmethod : r.method = "POST") (hpath : r.path = "/render".toList ∨ r.path = "/save".toList) :
    r.Accepted := by
  unfold Request.text at htext
  split at htext
  · cases htext
  · next hjson =>
    split at htext
    · cases htext
    · next hlength =>
      split at htext
      · cases htext
      · next body rest hread =>
        refine ⟨hmethod, hpath, by simpa using hjson, Nat.not_lt.mp hlength, body, rest, hread, ?_⟩
        by_contra hblank
        have hnil : Text.trimList body.uml.toList = [] :=
          Text.trimList_eq_nil_iff.mpr (by simpa using hblank)
        simp [DiagramRequest.text, hnil] at htext

/-- The text of an accepted body counts. -/
theorem Request.Accepted.text_ok {r : Request} (h : r.Accepted) : ∃ text, r.text = .ok text := by
  obtain ⟨body, rest, hread, c, hc, hblank⟩ := h.body
  have hsome : Text.trimList body.uml.toList ≠ [] := fun hnil =>
    hblank (Text.trimList_eq_nil_iff.mp hnil c hc)
  exact ⟨_, Request.text_of_read h.json h.length hread
    (if_neg (by simpa [List.isEmpty_iff] using hsome))⟩

/-- What a path has to be to lead to one of the two endpoints that render. -/
theorem Endpoint.path_of_ofPath? {path : List Char}
    (h : ofPath? path = some .render ∨ ofPath? path = some .save) :
    path = "/render".toList ∨ path = "/save".toList := by
  unfold ofPath? at h
  simp only [beq_iff_eq] at h
  by_cases hrender : path = "/render".toList
  · exact .inl hrender
  by_cases hsave : path = "/save".toList
  · exact .inr hsave
  rw [if_neg hrender, if_neg hsave] at h
  exfalso
  revert h
  repeat' split
  all_goals simp

/-- An endpoint that renders asks for it only with an accepted body. -/
theorem Action.ofEndpoint_accepted {r : Request} {endpoint : Endpoint} {text : String}
    (hpath : Endpoint.ofPath? r.path = some endpoint) (hallows : endpoint.allows r.method)
    (h : ofEndpoint r endpoint = .render text ∨ ofEndpoint r endpoint = .save text) :
    r.Accepted := by
  cases endpoint with
  | render =>
    simp only [ofEndpoint] at h
    split at h
    · next htext =>
      exact .of_text htext (beq_iff_eq.mp hallows) (Endpoint.path_of_ofPath? (.inl hpath))
    · simp at h
  | save =>
    simp only [ofEndpoint] at h
    split at h
    · next htext =>
      exact .of_text htext (beq_iff_eq.mp hallows) (Endpoint.path_of_ofPath? (.inr hpath))
    · simp at h
  | _ => simp [ofEndpoint] at h

/-- What is rendered or saved was asked for by a request that is taken up. -/
theorem Action.accepted {r : Request} {text : String}
    (h : ofRequest r = .render text ∨ ofRequest r = .save text) : r.Accepted := by
  unfold ofRequest at h
  simp only at h
  split at h
  · simp at h
  · split at h
    · simp at h
    · simp at h
    · next endpoint _ hpath =>
      split at h
      · next hallows => exact ofEndpoint_accepted hpath hallows h
      · simp at h

/-- Nothing but an accepted body is rendered or saved, and each one is. -/
theorem Action.accepted_iff {r : Request} :
    r.Accepted ↔ ∃ text, ofRequest r = .render text ∨ ofRequest r = .save text := by
  refine ⟨fun h => ?_, fun ⟨text, h⟩ => Action.accepted h⟩
  obtain ⟨text, htext⟩ := h.text_ok
  obtain hpath | hpath := h.path
  · exact ⟨text, .inl (by rw [Action.ofRequest_render h.method hpath, htext])⟩
  · exact ⟨text, .inr (by rw [Action.ofRequest_save h.method hpath, htext])⟩

end Http

/-- A request that is not taken up begins as one that never changes anything. -/
theorem Task.still_ofAction (s : Service) {request : Http.Request} (h : ¬ request.Accepted) :
    (Task.ofAction s request (.ofRequest request)).Still := by
  cases haction : Http.Action.ofRequest request with
  | render text => exact absurd (Http.Action.accepted (.inl haction)) h
  | save text => exact absurd (Http.Action.accepted (.inr haction)) h
  | _ => exact trivial

theorem Task.Still.waiting? {task : Task} (h : task.Still) : task.waiting? = none := by
  cases task with
  | render r phase => exact h.elim
  | save s phase => exact h.elim
  | _ => rfl

section Quiet

variable {R : Rules}

/-- A request that leaves everything as it is and has started no renderer. -/
structure Errand.Quiet (e : Errand) : Prop where
  still : e.task.Still
  idle : e.work = .idle

theorem Errand.Quiet.step {e e' : Errand} {store store' : Store} {d d' : Disk} (h : e.Quiet)
    (hstep : Errand.Step R e store d e' store' d') : store' = store ∧ d' = d ∧ e'.Quiet := by
  obtain ⟨hd, hstore, -, hstill⟩ := hstep.still h.still
  refine ⟨hstore, hd, hstill, ?_⟩
  have hwait := h.still.waiting?
  cases hstep with
  | advance => exact h.idle
  | begin _ _ _ _ _ hwait' => exact absurd (hwait'.symm.trans hwait) nofun
  | act => exact h.idle
  | finish _ _ _ _ _ _ _ hwait' => exact absurd (hwait'.symm.trans hwait) nofun

/-- Whatever the other requests do, a quiet request stays quiet. -/
theorem World.Step.quiet {w w' : World} (h : World.Step R w w') {i : Nat}
    (hquiet : ∃ e, w.errands[i]? = some e ∧ e.Quiet) :
    ∃ e, w'.errands[i]? = some e ∧ e.Quiet :=
  h.keeps_errand (fun hstep hquiet => (Errand.Quiet.step hquiet hstep).2.2) hquiet

end Quiet

/-- Any request but one with an accepted body and a text in it is answered at once without the
renderer, the drawn endings and the clock, and the service is as before. It has no effect among
other requests either: at no time does it wait for a renderer, and each of its steps leaves the
store with its ids and the whole disk as they are. -/
theorem only_accepted_requests_have_effects (request : Http.Request)
    (hrefused : ¬ request.Accepted) :
    (∀ (s : Service) (e : Setting), (s.handle e request).2 = s ∧
      ∀ e' : Setting, s.handle e' request = s.handle e request) ∧
    ∀ (s : Service) (R : Rules) (n i number : Nat) (w w' : World),
      w.errands[i]? = some ⟨.ofAction s request (.ofRequest request), number, .idle⟩ →
      World.Run R n w w' →
      ∃ e, w'.errands[i]? = some e ∧ e.task.waiting? = none ∧ e.work = .idle ∧
        ∀ store d e' store' d', Errand.Step R e store d e' store' d' →
          store' = store ∧ d' = d := by
  refine ⟨fun s e => ?_, fun s R n i number w w' he hrun => ?_⟩
  · unfold Service.handle
    cases haction : Http.Action.ofRequest request with
    | render text => exact absurd (Http.Action.accepted (.inl haction)) hrefused
    | save text => exact absurd (Http.Action.accepted (.inr haction)) hrefused
    | _ => exact ⟨rfl, fun _ => rfl⟩
  · obtain ⟨e, he, hquiet⟩ := hrun.keeps (fun _ _ hstep => hstep.quiet)
      ⟨_, he, Task.still_ofAction s hrefused, rfl⟩
    exact ⟨e, he, hquiet.still.waiting?, hquiet.idle, fun _ _ _ _ _ hstep =>
      ⟨(hquiet.step hstep).1, (hquiet.step hstep).2.1⟩⟩

/-- A request to save white space: a tab, a wide space and a line separator. -/
def blankRequest : Http.Request :=
  ⟨"POST", "/save", [.ofText "content-type" "application/json"],
    Utf8.encode "[\"\\t\u3000\u2028\"]"⟩

/-- White space has no effect on the shelf, whatever the renderer would do. -/
theorem blankRequest_has_no_effect :
    ¬ blankRequest.Accepted ∧ (onShelf.handle (scribbling 0) blankRequest).2 = onShelf ∧
      onShelf.handle (scribbling 1) blankRequest = onShelf.handle (scribbling 0) blankRequest := by
  have hrefused : ¬ blankRequest.Accepted := by
    intro h
    obtain ⟨text, htext⟩ := h.text_ok
    have hnone : blankRequest.text.toOption = none := by decide +kernel
    rw [htext] at hnone
    cases hnone
  obtain ⟨hsame, hother⟩ :=
    (only_accepted_requests_have_effects blankRequest hrefused).1 onShelf (scribbling 0)
  exact ⟨hrefused, hsame, hother (scribbling 1)⟩

end DiagramService
