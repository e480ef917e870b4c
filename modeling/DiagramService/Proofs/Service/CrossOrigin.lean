import DiagramService.Proofs.Http.Sharing
import DiagramService.Proofs.Service.Refusal

/-! Pages of any origin may read every response: whatever is asked for, in whatever state and with
whatever comes of it, the response names the origin of the request once. A request with the method
`OPTIONS` is answered at once and has no effect. -/

namespace DiagramService

open Http

/-! ## One request after another -/

/-- No answer of the service says anything about origins until it is sent. -/
theorem Service.unshared_act (s : Service) (e : Setting) (request : Request) :
    Unshared (s.act e request (.ofRequest request)).1.fields := by
  cases haction : Action.ofRequest request with
  | reply response => exact Action.unshared_reply haction
  | render text => exact Response.unshared_ofRender _
  | save text => exact Response.unshared_ofSave _
  | list => exact Response.unshared_ofList _
  | file path => exact StaticFile.unshared_serve _ _ _ _

theorem Service.handle_options {request : Request} (h : request.method = "OPTIONS") :
    ∃ response : Response, Allows request (response.finished request) ∧
      ∀ (s : Service) (e : Setting), s.handle e request = (response.finished request, s) := by
  obtain ⟨response, haction, hallows⟩ := Action.ofRequest_options h
  refine ⟨response, hallows, fun s e => ?_⟩
  simp only [handle, act, haction]

/-! ## Requests at the same time -/

/-- An answer that is ready says nothing about origins. -/
def Task.Unshared : Task → Prop
  | .answered response => Http.Unshared response.fields
  | _ => True

theorem Task.unshared_ofAction (s : Service) (request : Request) :
    (Task.ofAction s request (.ofRequest request)).Unshared := by
  cases haction : Action.ofRequest request with
  | reply response => exact Action.unshared_reply haction
  | file path => exact StaticFile.unshared_serve _ _ _ _
  | _ => exact trivial

/-- Nor does an answer that a request comes to in the end. -/
theorem Task.Unshared.response {task : Task} (h : task.Unshared) {response : Response}
    (hresponse : task.response? = some response) : Http.Unshared response.fields := by
  cases task with
  | render rendering phase =>
    obtain ⟨result, -, rfl⟩ := Option.map_eq_some_iff.mp hresponse
    exact Response.unshared_ofRender result
  | save s phase =>
    obtain ⟨result, -, rfl⟩ := Option.map_eq_some_iff.mp hresponse
    exact Response.unshared_ofSave result
  | list phase =>
    obtain ⟨result, -, rfl⟩ := Option.map_eq_some_iff.mp hresponse
    exact Response.unshared_ofList result
  | answered response' =>
    cases hresponse
    exact h

/-- A request on the way to an answer that says nothing about origins. An answer that needs nothing
but the request is ready at once. -/
structure Errand.Open (request : Request) (number : Nat) (e : Errand) : Prop where
  unshared : e.task.Unshared
  ready : ∀ response, Action.ofRequest request = .reply response →
    e = ⟨.answered response, number, .idle⟩

section Step

variable {R : Rules} {e e' : Errand} {store store' : Store} {d d' : Disk}

/-- A request that has been answered takes no step that changes anything. -/
theorem Errand.Step.answered {response : Response} (hstep : Errand.Step R e store d e' store' d')
    (h : e.task = .answered response) : e' = e ∧ store' = store ∧ d' = d := by
  cases hstep with
  | advance =>
    cases h
    exact ⟨rfl, rfl, rfl⟩
  | begin _ _ _ _ _ hwait =>
    cases h
    cases hwait
  | act _ _ _ _ _ _ _ hwait =>
    cases h
    cases hwait
  | finish _ _ _ _ _ _ _ hwait =>
    cases h
    cases hwait

theorem Errand.Step.unshared (hstep : Errand.Step R e store d e' store' d')
    (h : e.task.Unshared) : e'.task.Unshared := by
  cases hstep with
  | advance task =>
    cases task with
    | answered response => exact h
    | _ => exact trivial
  | begin => exact h
  | act => exact h
  | finish task =>
    cases task with
    | answered response => exact h
    | _ => exact trivial

variable {request : Request} {number : Nat}

theorem Errand.open_ofAction (s : Service) (request : Request) (number : Nat) :
    Errand.Open request number ⟨.ofAction s request (.ofRequest request), number, .idle⟩ :=
  ⟨Task.unshared_ofAction s request, fun response hreply => by rw [hreply]; rfl⟩

theorem Errand.Open.step (h : e.Open request number)
    (hstep : Errand.Step R e store d e' store' d') : e'.Open request number := by
  refine ⟨hstep.unshared h.unshared, fun response hreply => ?_⟩
  have hready := h.ready response hreply
  rw [(hstep.answered (congrArg Errand.task hready)).1, hready]

/-- Whatever else happens in the world, a request comes to no other answer. -/
theorem World.Run.open {n : Nat} {w w' : World} (h : World.Run R n w w') {i : Nat}
    (he : ∃ e, w.errands[i]? = some e ∧ e.Open request number) :
    ∃ e, w'.errands[i]? = some e ∧ e.Open request number :=
  h.keeps (fun _ _ hstep hopen => hstep.keeps_errand (fun hs h => Errand.Open.step h hs) hopen) he

end Step

/-- Every response can be read across origins: whatever the request is and whatever the service
does, the origin of the request is named once, or none if it has none, and credentials are allowed.
A request with the method `OPTIONS` is answered with 200 and what it asks to be allowed, the same in
every state, and has no effect. All this is so among other requests too. -/
theorem every_response_is_shared (request : Request) :
    (∀ (s : Service) (e : Setting), Shared request (s.handle e request).1) ∧
    (request.method = "OPTIONS" → ∃ response, Allows request response ∧
      ∀ (s : Service) (e : Setting), s.handle e request = (response, s)) ∧
    ∀ (s : Service) (R : Rules) (n i number : Nat) (w w' : World),
      w.errands[i]? = some ⟨.ofAction s request (.ofRequest request), number, .idle⟩ →
      World.Run R n w w' →
      ∃ e, w'.errands[i]? = some e ∧
        (∀ response, e.task.response? = some response →
          Shared request (response.finished request)) ∧
        (request.method = "OPTIONS" → e.work = .idle ∧
          (∃ response, e.task = .answered response ∧
            Allows request (response.finished request)) ∧
          ∀ store d e' store' d', Errand.Step R e store d e' store' d' →
            e' = e ∧ store' = store ∧ d' = d) := by
  refine ⟨fun s e => (s.unshared_act e request).finished request, fun h => ?_,
    fun s R n i number w w' he hrun => ?_⟩
  · obtain ⟨response, hallows, hsame⟩ := Service.handle_options h
    exact ⟨_, hallows, hsame⟩
  · obtain ⟨e, hget, hunshared, hready⟩ :=
      hrun.open ⟨_, he, Errand.open_ofAction s request number⟩
    refine ⟨e, hget, fun response hresponse =>
      (hunshared.response hresponse).finished request, fun h => ?_⟩
    obtain ⟨response, hreply, hallows⟩ := Action.ofRequest_options h
    obtain rfl := hready response hreply
    exact ⟨rfl, ⟨response, rfl, hallows⟩, fun _ _ _ _ _ hs => hs.answered rfl⟩

/-! ## A question from another origin -/

/-- A page asks whether it may save. Of the two origins that are given the first one counts. -/
def asking : Request :=
  ⟨"OPTIONS", "/save?now", [.ofText "Origin" "http://localhost:3000",
    .ofText "origin" "http://localhost:4000", .ofText "Access-Control-Request-Method" "POST"], []⟩

/-- Anything may come from outside. -/
def Rules.free : Rules where
  admits _ _ _ := True
  reopens _ _ := True
  clock _ := True
  draws _ _ _ := True
  acts _ _ _ := True
  ends _ _ _ _ := True

/-- The question, and nothing else yet. -/
def askingWorld : World :=
  ⟨[onShelf.store], onShelf.disk,
    [⟨.ofAction onShelf asking (.ofRequest asking), 0, .idle⟩]⟩

/-- The question is answered alone and while a save is taken up. -/
theorem asking_is_answered :
    (∃ response, (∀ (s : Service) (e : Setting), s.handle e asking = (response, s)) ∧
      response.status = 200 ∧ response.body = [] ∧
      valuesOf "access-control-allow-origin" response.fields =
        [Utf8.encode "http://localhost:3000"] ∧
      valuesOf "access-control-allow-methods" response.fields = [Utf8.encode "POST"] ∧
      valuesOf "access-control-allow-headers" response.fields = []) ∧
    ∃ w' e response, World.Run .free 1 askingWorld w' ∧ w'.errands.length = 2 ∧
      w'.errands[0]? = some e ∧ e.task = .answered response ∧
      Allows asking (response.finished asking) := by
  obtain ⟨hshared, hoptions, hamong⟩ := every_response_is_shared asking
  constructor
  · obtain ⟨response, hallows, hsame⟩ := hoptions rfl
    have hread := hshared onShelf (scribbling 0)
    rw [hsame] at hread
    exact ⟨response, hsame, hallows.status, hallows.body, hread.origin.trans (by decide),
      hallows.methods.trans (by decide), hallows.headers.trans (by decide)⟩
  · have hrun : World.Run .free 1 askingWorld ⟨askingWorld.stores, askingWorld.disk,
        askingWorld.errands ++ [⟨.save ⟨.standard, "a"⟩ .makeDir, 0, .idle⟩]⟩ :=
      .tail (.refl _) (.accept _ _ _ _ _ trivial)
    obtain ⟨e, hget, -, hanswered⟩ := hamong onShelf .free 1 0 0 _ _ rfl hrun
    obtain ⟨-, ⟨response, htask, hallows⟩, -⟩ := hanswered rfl
    exact ⟨_, e, response, hrun, rfl, hget, htask, hallows⟩

end DiagramService
